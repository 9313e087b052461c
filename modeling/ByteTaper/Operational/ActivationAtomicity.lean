import ByteTaper.Operational.PolicyActivationBarrier

/-! # A failed activation and the epochs

An activation that fails leaves the served snapshot alone. The epochs are another matter: a route that
cannot be versioned ends the activation without taking back what was done for the routes before it, and
taking back restores a route only to the epoch that was written down last. -/

namespace ByteTaper.Operational

open ByteTaper.Runtime TaperQuery List Option ActivationState

/-! ## Versioning that fails -/

section Store

variable {store after : RouteCacheEpochStore} {change : TqApplyPlanRouteChange}
  {changes : RouteChanges} {routes : List TqRouteCacheCleanupPlan}

theorem length_changesOf_le (routeId : Text) (changes : RouteChanges) :
    (changesOf routeId changes).length ≤ changes.length := length_filter_le _ _

/-- The epochs are what they were if no change has written to the store. -/
theorem epochs_versioned_iff (h : Versioned store changes after routes)
    (hfits : ∀ change ∈ changes, change.routeId.length < kEpochRouteIdSize)
    (hsize : changes.length < 2 ^ 64) :
    (∀ routeId, routeCacheEpochGet after routeId = routeCacheEpochGet store routeId) ↔
      ∀ change ∈ changes, writesEpoch store change = false := by
  refine ⟨fun hsame change hmem => ?_, fun hnot routeId => by rw [h.eq_of_not_writesEpoch hnot]⟩
  have hmine : change ∈ changesOf change.routeId changes := by simp [changesOf, hmem]
  have hepoch := hsame change.routeId
  by_contra hwrites
  simp only [writesEpoch, Bool.not_eq_false, Bool.or_eq_true, Bool.and_eq_true,
    decide_eq_true_eq, Bool.not_eq_true'] at hwrites
  cases hold : routeCacheEpochGet store change.routeId with
  | none =>
    -- The route was not registered before, and is now.
    have hreg : isRegistered after change.routeId := by
      rcases hwrites with hbumps | ⟨hadded, -⟩
      · exact h.isRegistered_of_bumps hfits hmem hbumps
      · exact (h.isRegistered_iff hfits _).mpr (.inr ⟨change, hmem, hadded, rfl⟩)
    simp [isRegistered, hepoch, hold] at hreg
  | some =>
    rw [h.get hfits, hold, effects_some, some.injEq] at hepoch
    have hcnt := countP_le_length (p := fun change => TqApplyPlanRouteChange.bumps change)
      (l := changesOf change.routeId changes)
    have hlen := length_changesOf_le change.routeId changes
    have hzero := (add_ofNat_eq_self_iff (by omega)).mp hepoch
    have hbumps : ¬change.bumps := countP_eq_zero.mp hzero change hmine
    simp [hbumps, isRegistered, hold] at hwrites

/-- The first change that is to write to the store cannot be made. -/
def FirstWriteFails (store : RouteCacheEpochStore) (plan : RouteChanges) : Prop :=
  ∃ change, plan.find? (writesEpoch store) = some change ∧ cannotVersion store change = true

/-- No change that was made is the first one to write, if that one cannot be made. -/
theorem FirstWriteFails.not_writesEpoch {later}
    (hfst : FirstWriteFails store (changes ++ later)) (h : Versioned store changes after routes) :
    ∀ change ∈ changes, writesEpoch store change = false := by
  induction h with
  | nil => simp
  | @cons store mid after change changes routes newEpoch head tail ih =>
    obtain ⟨first, hfind, hcant⟩ := hfst
    have hnot : writesEpoch store change = false := by
      by_contra hwrites
      rw [cons_append, find?_cons_of_pos (by simpa using hwrites)] at hfind
      rw [← some.inj hfind, head.can] at hcant
      cases hcant
    have hmid := head.eq_of_not_writesEpoch hnot
    subst hmid
    rw [cons_append, find?_cons_of_neg (by simp [hnot])] at hfind
    simpa [hnot] using ih ⟨first, hfind, hcant⟩

theorem firstWriteFails_iff (h : Versioned store changes after routes)
    (hcant : cannotVersion after change) (later : RouteChanges) :
    FirstWriteFails store (changes ++ change :: later) ↔
      ∀ change ∈ changes, writesEpoch store change = false := by
  refine ⟨fun hfst => hfst.not_writesEpoch h, fun hnot => ?_⟩
  rw [h.eq_of_not_writesEpoch hnot] at hcant
  have hskip : changes.find? (writesEpoch store) = none :=
    find?_eq_none.mpr fun other hmem => by simp [hnot other hmem]
  refine ⟨change, ?_, hcant⟩
  rw [find?_append, hskip, none_or, find?_cons_of_pos (writesEpoch_of_cannotVersion hcant)]

/-! ## Taking epochs back -/

/-- No route of the plan has the epoch `0`, and a route that is bumped does not come again. -/
structure TakesBack (store : RouteCacheEpochStore) (plan : RouteChanges) : Prop where
  epochs : ∀ change ∈ plan, routeCacheEpochGet store change.routeId ≠ some 0
  once : plan.Pairwise fun change later => change.bumps = true → later.routeId ≠ change.routeId

/-- Taking back the changes of one route. -/
theorem restored_iff {epoch : UInt64} (hepoch : epoch ≠ 0) (hne : changes ≠ [])
    (hsize : changes.length < 2 ^ 64) :
    restored (some epoch) changes = some epoch ↔
      ∀ change ∈ changes.dropLast, change.bumps = false := by
  have hlast := dropLast_append_getLast hne
  have hlen : changes.dropLast.length < 2 ^ 64 := by
    rw [length_dropLast]
    omega
  have hiff := restored_append_iff hepoch hlen (changes.getLast hne)
  rwa [hlast] at hiff

/-- The changes of one route, where only the last one may bump. -/
theorem pairwise_of_dropLast (h : ∀ change ∈ changes.dropLast, change.bumps = false) :
    changes.Pairwise fun change later => change.bumps → later.routeId ≠ change.routeId := by
  rcases eq_nil_or_concat changes with rfl | ⟨first, last, rfl⟩
  · exact List.Pairwise.nil
  rw [concat_eq_append, dropLast_concat] at h
  rw [concat_eq_append]
  refine pairwise_append.mpr ⟨?_, pairwise_singleton _ _, ?_⟩
  · refine pairwise_iff_forall_sublist.mpr fun {change _} hpair hbumps => ?_
    exact absurd (hbumps.symm.trans (h change (hpair.subset (by simp)))) (by simp)
  · intro change hmem later _ hbumps
    exact absurd (hbumps.symm.trans (h change hmem)) (by simp)

theorem dropLast_of_pairwise {routeId : Text} (hsame : ∀ change ∈ changes, change.routeId = routeId)
    (h : changes.Pairwise fun change later =>
      change.bumps → later.routeId ≠ change.routeId) :
    ∀ change ∈ changes.dropLast, change.bumps = false := by
  rcases eq_nil_or_concat changes with rfl | ⟨first, last, rfl⟩
  · simp
  rw [concat_eq_append] at h hsame ⊢
  rw [dropLast_concat]
  intro change hmem
  by_contra hbumps
  refine (pairwise_append.mp h).2.2 change hmem last (by simp) (by simpa using hbumps) ?_
  rw [hsame last (by simp), hsame change (by simp [hmem])]

/-- The epochs are back to what they were if the plan can be taken back. -/
theorem epochs_rollback_iff (h : Versioned store changes after routes)
    (hstore : RegisteredOnce store)
    (hfits : ∀ change ∈ changes, change.routeId.length < kEpochRouteIdSize)
    (hchd : ∀ change ∈ changes, change.kind ≠ .unchanged)
    (hcan : CanVersion store changes) (hsize : changes.length < 2 ^ 64) :
    (∀ routeId, routeCacheEpochGet (routes.foldl rollbackRouteEpoch after) routeId =
      routeCacheEpochGet store routeId) ↔ TakesBack store changes := by
  have hshort : ∀ routeId, (changesOf routeId changes).length < 2 ^ 64 := fun routeId =>
    Nat.lt_of_le_of_lt (length_changesOf_le routeId changes) hsize
  have hrestored : ∀ routeId, routeCacheEpochGet (routes.foldl rollbackRouteEpoch after) routeId =
      restored (routeCacheEpochGet store routeId) (changesOf routeId changes) := by
    intro routeId
    rw [routeCacheEpochGet_rollback (h.registeredOnce hfits hstore), h.saved hfits hchd,
      h.get hfits]
    rfl
  simp only [hrestored]
  constructor
  · intro hsame
    have hzero : ∀ change ∈ changes, routeCacheEpochGet store change.routeId ≠ some 0 := by
      intro change hmem hepoch
      have hback := hsame change.routeId
      have hmine : change ∈ changesOf change.routeId changes := by simp [changesOf, hmem]
      rw [hepoch, restored_of_zero rfl (ne_nil_of_mem hmine)] at hback
      cases hback
    refine ⟨hzero, pairwise_iff_forall_sublist.mpr ?_⟩
    intro change later hpair hbumps hid
    have hmem : change ∈ changes := hpair.subset (by simp)
    obtain ⟨epoch, hepoch⟩ := isSome_iff_exists.mp (hcan.bumped change hmem hbumps)
    have hmine : [change, later].Sublist (changesOf change.routeId changes) := by
      have hfilt := hpair.filter (·.routeId == change.routeId)
      simpa [changesOf, hid] using hfilt
    have hback := hsame change.routeId
    rw [hepoch] at hback
    have hnoBump := (restored_iff (fun hz => hzero change hmem (hz ▸ hepoch))
      (ne_nil_of_mem (hmine.subset mem_cons_self)) (hshort change.routeId)).mp hback
    exact pairwise_iff_forall_sublist.mp (pairwise_of_dropLast hnoBump) hmine hbumps hid
  · rintro ⟨hzero, honce⟩ routeId
    by_cases hnil : changesOf routeId changes = []
    · rw [hnil]
      rfl
    · obtain ⟨change, hmine⟩ := exists_mem_of_ne_nil _ hnil
      have hmine : change ∈ changes ∧ change.routeId = routeId := by
        simpa [changesOf] using hmine
      cases hepoch : routeCacheEpochGet store routeId with
      | none => exact restored_of_zero rfl hnil
      | some epoch =>
        have hne : epoch ≠ 0 := fun hz => hzero change hmine.1 (by rw [hmine.2, hepoch, hz])
        refine (restored_iff hne hnil (hshort routeId)).mpr
          (@dropLast_of_pairwise _ routeId ?_ (honce.sublist filter_sublist))
        intro other hother
        simpa using (mem_filter.mp hother).2

end Store

/-! ## Failed activations -/

/-- The epoch of a route, if there is an epoch store and the route is registered. -/
def ActivationState.registeredEpoch (state : ActivationState) (routeId : Text) : Option UInt64 :=
  state.epochs.bind (routeCacheEpochGet · routeId)

/-- The served snapshot and the registered routes with their epochs are what they were. -/
structure Untouched (state after : ActivationState) : Prop where
  policyStore : after.policyStore = state.policyStore
  epochs : ∀ routeId, after.registeredEpoch routeId = state.registeredEpoch routeId

/-- What holds of policies that were read: the reader refuses longer ids, and a vector has a size of 64
    bits. -/
structure ActivationInput.Readable (input : ActivationInput) : Prop where
  ids : ∀ route ∈ input.before.routes ++ input.after.routes,
    route.routeId.length < kEpochRouteIdSize
  sizes : input.before.routes.length + input.after.routes.length < 2 ^ 64

section Plan

variable {L : IrLanguage} {input : ActivationInput}

theorem ActivationInput.Readable.plan_ids (h : input.Readable) :
    ∀ change ∈ input.plan L, change.routeId.length < kEpochRouteIdSize := by
  intro change hmem
  obtain ⟨route, hroute, hid⟩ := plan_routeId hmem
  exact hid ▸ h.ids route hroute

theorem ActivationInput.Readable.plan_size (h : input.Readable) : (input.plan L).length < 2 ^ 64 :=
  Nat.lt_of_le_of_lt length_plan_le h.sizes

theorem plan_kinds {options before after} :
    ∀ change ∈ buildTaperqueryApplyPlan L.toRouteLanguage options before after,
      ∀ other ∈ buildTaperqueryApplyPlan L.toRouteLanguage options before after,
        change.kind = .added → other.bumps → other.routeId ≠ change.routeId := by
  intro change hmem other hother hkind hbumps hid
  have hnone := (plan_added_iff hmem).mp hkind
  rw [← hid] at hnone
  cases ((plan_added_iff hother).mpr hnone).symm.trans (bumps_kind hbumps)

end Plan

section Failed

variable {L : IrLanguage} {config : PolicyActivationBarrierConfig}
  {request : PolicyActivationRequest} {state after : ActivationState}
  {result : PolicyActivationResult}

/-- The changes of the plan can be made and taken back, or the first one that is to write fails. -/
def Recoverable (store : RouteCacheEpochStore) (plan : RouteChanges) : Prop :=
  FirstWriteFails store plan ∨ CanVersion store plan ∧ TakesBack store plan

theorem untouched_iff {store} (heps : state.epochs = some store)
    (hpol : after.policyStore = state.policyStore) :
    Untouched state after ↔
      ∀ routeId, after.registeredEpoch routeId = routeCacheEpochGet store routeId := by
  have hold : ∀ routeId, state.registeredEpoch routeId = routeCacheEpochGet store routeId := by
    simp [registeredEpoch, heps]
  exact ⟨fun hsame routeId => (hsame.epochs routeId).trans (hold routeId),
    fun hsame => ⟨hpol, fun routeId => (hsame routeId).trans (hold routeId).symm⟩⟩

theorem failed_input_iff {input : ActivationInput} {store}
    (hin : input.Readable) (hstore : RegisteredOnce store) (heps : state.epochs = some store)
    (h : activateInput L config request state input = (after, result)) (hfail : result.ok = false) :
    Untouched state after ↔ Recoverable store (input.plan L) := by
  obtain ⟨made, rest, versioned, hplan, hsync, hmade, hend⟩ :=
    versionEpochsForApply_cases store (input.plan L)
  have hsize := hin.plan_size (L := L)
  have hcases := activateInput_cases h
  simp only [heps, syncRouteEpochs, hsync] at hcases
  rcases hend with ⟨hok, rfl⟩ | ⟨hok, change, later, rfl, hcant⟩
  · -- All changes were made, and taken back.
    rw [append_nil] at hplan
    rw [← hplan] at hmade
    rcases hcases with ⟨hnot, -⟩ | ⟨-, ⟨-, hpol, hafter⟩ | ⟨hres, -⟩⟩
    · cases hok.symm.trans hnot
    · have hcan := hmade.canVersion hin.plan_ids plan_kinds
      have hnotFirst : ¬FirstWriteFails store (input.plan L) := by
        intro hfst
        have hall : FirstWriteFails store (input.plan L ++ []) := by simpa using hfst
        have hnone := hall.not_writesEpoch hmade
        obtain ⟨first, hfind, -⟩ := hfst
        have hwrites := find?_some hfind
        rw [hnone first (mem_of_find?_eq_some hfind)] at hwrites
        cases hwrites
      have hback := epochs_rollback_iff hmade hstore hin.plan_ids
        (fun change hmem => plan_changed hmem rfl) hcan hsize
      rw [untouched_iff heps hpol, Recoverable, or_iff_right hnotFirst, and_iff_right hcan, ← hback]
      simp [registeredEpoch, hafter, rollbackRouteEpochsForApply]
    · cases hfail.symm.trans hres
  · -- One change could not be made; the ones before it stay.
    rcases hcases with ⟨-, -, hpol, hafter⟩ | ⟨hnot, -⟩
    · have hids : ∀ change ∈ made, change.routeId.length < kEpochRouteIdSize := fun other hmem =>
        hin.plan_ids (L := L) other (hplan ▸ mem_append_left _ hmem)
      have hmadeSize : made.length < 2 ^ 64 := by
        rw [hplan, length_append] at hsize
        omega
      have hcan : ¬CanVersion store (input.plan L) := hplan ▸ hmade.not_canVersion hids hcant later
      rw [untouched_iff heps hpol, Recoverable, or_iff_left fun hboth => hcan hboth.1, hplan,
        firstWriteFails_iff hmade hcant later, ← epochs_versioned_iff hmade hids hmadeSize]
      simp [registeredEpoch, hafter]
    · cases hok.symm.trans hnot

/-- A failed activation leaves everything as it was if it fails in its first stage, or if its plan can be
    taken back from where it fails. -/
theorem failed_activation_untouched_iff
    (hactivate : activate L config request state = some (after, result))
    (hfailed : result.ok = false)
    (hstore : ∀ store, state.epochs = some store → RegisteredOnce store)
    (hinput : ∀ input, activationInput L config request state = some (.ok input) →
      input.Readable) :
    Untouched state after ↔
      ∀ store input, state.epochs = some store →
        activationInput L config request state = some (.ok input) →
          Recoverable store (input.plan L) := by
  rcases activate_cases hactivate with ⟨hnone, rfl, -⟩ | ⟨input, hfound, h⟩
  · exact ⟨fun _ store input _ hfound => absurd hfound (hnone input),
      fun _ => ⟨rfl, fun routeId => rfl⟩⟩
  · cases hep : state.epochs with
    | none =>
      refine ⟨fun _ store _ h => (by cases h), fun _ => ?_⟩
      have hcases := activateInput_cases h
      simp only [hep, syncRouteEpochs, rollbackRouteEpochsForApply, map_none] at hcases
      rcases hcases with ⟨hnot, -⟩ | ⟨-, ⟨-, hpol, hafter⟩ | ⟨hres, -⟩⟩
      · cases hnot
      · exact ⟨hpol, fun routeId => by simp [registeredEpoch, hafter, hep]⟩
      · cases hfailed.symm.trans hres
    | some store =>
      rw [failed_input_iff (hinput input hfound) (hstore store hep) hep h hfailed]
      refine ⟨fun hplan other found hother hfound' => ?_, fun hall =>
        hall store input rfl hfound⟩
      cases hother
      have hsame := hfound.symm.trans hfound'
      cases hsame
      exact hplan

end Failed

/-! ## A route that is not registered -/

/-- Any hash will do: this one reads the beginning of the text only. -/
def sampleHash (text : Text) : UInt64 :=
  (text.take 128).foldl (fun hash c => hash * 31 + c.toNat.toUInt64) 0

def sampleLanguage : IrLanguage where
  toRouteLanguage := routeLanguage sampleHash fun _ => []
  siphash := sampleHash
  sha256Hex := id
  loadYaml := fun _ => .error (lit "no YAML")

def ordersRoute (mode : TqFieldFilterMode) : TqRoutePolicy :=
  { routeId := lit "orders", matchPrefix := lit "/orders", fieldFilter := { mode }
    cache := { behavior := .store, enabled := true } }

def itemsRoute (mode : TqFieldFilterMode) : TqRoutePolicy :=
  { routeId := lit "items", matchPrefix := lit "/items", fieldFilter := { mode } }

/-- Orders are cached, items are not. -/
def servedPolicy : PolicyIr :=
  { routes := [ordersRoute .none, itemsRoute .none] }

/-- Both are filtered. -/
def filteredPolicy : PolicyIr :=
  { routes := [ordersRoute .allowlist, itemsRoute .allowlist] }

def servedSnapshot : RuntimePolicySnapshot :=
  { policyIdentity := sampleLanguage.computePolicyDocumentIdentity servedPolicy
    generation := 1, policyIr := servedPolicy }

def servingState (registered : List Text) : ActivationState where
  policyStore := some { active := some servedSnapshot, generation := 1 }
  epochs := some (registered.map fun routeId => { routeId })

/-- What the pull loop asks for when the pointer names a policy. -/
def pullOf (generation : UInt64) (policy : PolicyIr) :
    PolicyActivationRequest :=
  pullRequest sampleLanguage generation 1 policy (some servedSnapshot)

/-- The base is the served policy. -/
theorem activationInput_pullOf (generation : UInt64) (policy : PolicyIr) (registered : List Text) :
    activationInput sampleLanguage {} (pullOf generation policy) (servingState registered) =
      some (.ok
        { store := { active := some servedSnapshot, generation := 1 }
          before := servedPolicy, after := policy }) := by
  simp [activationInput, servingState, pullOf, pullRequest, basePolicy, committedPolicy,
    PolicyActivationRequest.beforeGeneration, servedBase, servedSnapshot, servedPolicy]

theorem filtered_readable (generation : UInt64) (registered : List Text) (input : ActivationInput)
    (h : activationInput sampleLanguage {} (pullOf generation filteredPolicy)
      (servingState registered) = some (.ok input)) : input.Readable := by
  rw [activationInput_pullOf] at h
  cases h
  exact ⟨by decide +kernel, by decide +kernel⟩

/-- With no route registered the first bump fails, and nothing has been touched. -/
theorem failed_activation_untouched_unregistered :
    ∃ after result,
      activate sampleLanguage {} (pullOf 2 filteredPolicy) (servingState []) =
        some (after, result) ∧
      result.ok = false ∧ Untouched (servingState []) after := by
  obtain ⟨after, result, hactv, hfail⟩ : ∃ after result,
      activate sampleLanguage {} (pullOf 2 filteredPolicy) (servingState []) =
        some (after, result) ∧ result.ok = false := by
    rw [activate, activationInput_pullOf]
    exact ⟨_, _, rfl, by decide +kernel⟩
  refine ⟨after, result, hactv, hfail, (failed_activation_untouched_iff hactv hfail
    (fun _ hep => some.inj hep ▸ nodup_nil) (filtered_readable 2 [])).mpr ?_⟩
  intro store input hep hin
  rw [activationInput_pullOf] at hin
  cases hin
  cases hep
  have hfst : ((ActivationInput.plan sampleLanguage
      { store := { active := some servedSnapshot, generation := 1 }
        before := servedPolicy, after := filteredPolicy }).find? (writesEpoch [])).any
          (cannotVersion []) := by decide +kernel
  obtain ⟨change, hfind, hcannot⟩ := (any_eq_true _ _).mp hfst
  exact .inl ⟨change, hfind, hcannot⟩

/-- At startup only the routes that store are registered. Items cannot be bumped then, and the bump of
    orders stays. -/
theorem failed_activation_bumps_orders :
    ∃ after result,
      activate sampleLanguage {} (pullOf 2 filteredPolicy) (servingState [lit "orders"]) =
        some (after, result) ∧
      result.ok = false ∧ ¬Untouched (servingState [lit "orders"]) after := by
  rw [activate, activationInput_pullOf]
  refine ⟨_, _, rfl, ?_, fun hsame => ?_⟩
  · decide +kernel
  · have hepoch := hsame.epochs (lit "orders")
    revert hepoch
    decide +kernel

end ByteTaper.Operational
