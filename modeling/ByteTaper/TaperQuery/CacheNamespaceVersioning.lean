import ByteTaper.Cache.L1Cache
import ByteTaper.Runtime.RouteCacheEpochStore
import ByteTaper.TaperQuery.ApplyPlan
import Mathlib.Data.Finset.Card

/-! # The epochs of an apply

`tq_cache_namespace_versioning.cpp`: before a new policy is served, its routes are registered and the
epochs of the changed ones are bumped, one route after the other, with the epochs before written down.
The epoch store, the L1 cache and the queue of the L2 cleanups may each be missing. -/

namespace ByteTaper.TaperQuery

open Cache ByteTaper.Runtime List TqApplyPlanRouteChange

/-! ## Versioning -/

structure TqRouteCacheCleanupPlan where
  routeId : Text
  oldEpoch : UInt64 := 0
  newEpoch : UInt64 := 0
  beforeRouteIdentity : Text := []
  afterRouteIdentity : Text := []
  l1CleanupRequired : Bool := false
  l2CleanupRequired : Bool := false
  variantCleanupRequired : Bool := false
  l1RemovedCount : Nat := 0
  l2CleanupEnqueued : Bool := false

structure TqCacheNamespaceApplyResult where
  ok : Bool := false
  routes : List TqRouteCacheCleanupPlan := []
  error : Text := []

/-- A modified route of which a field with an impact on the cache has changed. -/
def TqApplyPlanRouteChange.bumps (change : TqApplyPlanRouteChange) : Bool :=
  change.kind = .modified && change.fieldChanges.any fun field => isCacheImpacting field.impact

variable (epochs : Option RouteCacheEpochStore)

/-- `0` for a route that is not registered. -/
def epochOrZero (routeId : Text) : UInt64 :=
  (epochs.bind (routeCacheEpochGet · routeId)).getD 0

variable (change : TqApplyPlanRouteChange)

/-- What is written down of a route before it is versioned. -/
def cleanupPlan : TqRouteCacheCleanupPlan where
  routeId := change.routeId
  oldEpoch := epochOrZero epochs change.routeId
  newEpoch := epochOrZero epochs change.routeId
  beforeRouteIdentity := change.beforeIdentity
  afterRouteIdentity := change.afterIdentity
  l1CleanupRequired := change.kind = .removed || change.bumps
  l2CleanupRequired := change.kind = .removed || change.bumps

def registerAdded : Except Text (Option RouteCacheEpochStore × List TqRouteCacheCleanupPlan) :=
  let plan := cleanupPlan epochs change
  match epochs with
  | none => .ok (none, [{ plan with newEpoch := kInitialRouteCacheEpoch }])
  | some store =>
    match routeCacheEpochRegister store change.routeId with
    | (after, .ok) =>
      .ok (some after, [{ plan with newEpoch := epochOrZero (some after) change.routeId }])
    | _ => .error (lit "Failed to register added route: " ++ change.routeId)

def bumpModified : Except Text (Option RouteCacheEpochStore × List TqRouteCacheCleanupPlan) :=
  let plan := cleanupPlan epochs change
  match epochs with
  | none =>
    .ok (none,
      [{ plan with
        newEpoch := if plan.oldEpoch = 0 then kInitialRouteCacheEpoch + 1 else plan.oldEpoch + 1 }])
  | some store =>
    match routeCacheEpochBump store change.routeId with
    | some after =>
      .ok (some after, [{ plan with newEpoch := epochOrZero (some after) change.routeId }])
    | none => .error (lit "Failed to bump epoch for route: " ++ change.routeId)

/-- One round of the loop; an unchanged route leaves no plan. -/
def versionRoute : Except Text (Option RouteCacheEpochStore × List TqRouteCacheCleanupPlan) :=
  match change.kind with
  | .added => registerAdded epochs change
  | .removed => .ok (epochs, [cleanupPlan epochs change])
  | .modified =>
    if change.bumps then bumpModified epochs change
    else .ok (epochs, [cleanupPlan epochs change])
  | .unchanged => .ok (epochs, [])

/-- The first route that cannot be versioned ends the loop; what was done before it stays. -/
def versionEpochsForApply (epochs : Option RouteCacheEpochStore) :
    RouteChanges → Option RouteCacheEpochStore × TqCacheNamespaceApplyResult
  | [] => (epochs, { ok := true })
  | change :: changes =>
    match versionRoute epochs change with
    | .error error => (epochs, { ok := false, error })
    | .ok (after, plans) =>
      let rest := versionEpochsForApply after changes
      (rest.1, { rest.2 with routes := plans ++ rest.2.routes })

/-! ## One route -/

section Route

variable (store : RouteCacheEpochStore) (change : TqApplyPlanRouteChange)

/-- What a change makes of the epoch of its route. -/
def TqApplyPlanRouteChange.effect (epoch : Option UInt64) : Option UInt64 :=
  if change.kind = .added then some (epoch.getD kInitialRouteCacheEpoch)
  else if change.bumps then epoch.map (· + 1)
  else epoch

/-- There is no room for an added route, or a route to bump is not registered. -/
def cannotVersion : Bool :=
  !isRegistered store change.routeId &&
    (change.bumps || change.kind = .added && kMaxRouteCacheEpochEntries ≤ store.length)

theorem register_cases (routeId : Text) :
    (∃ after, routeCacheEpochRegister store routeId = (after, .ok) ∧
      (isRegistered store routeId = false → store.length < kMaxRouteCacheEpochEntries)) ∨
    (routeCacheEpochRegister store routeId = (store, .capacityExceeded) ∧
      isRegistered store routeId = false ∧ kMaxRouteCacheEpochEntries ≤ store.length) := by
  unfold routeCacheEpochRegister
  rw [← isRegistered_eq_any]
  split
  next h => exact .inl ⟨store, rfl, fun hnot => by simp [hnot] at h⟩
  next h =>
    split
    next hfull => exact .inr ⟨rfl, by simpa using h, hfull⟩
    next hroom => exact .inl ⟨_, rfl, fun _ => by omega⟩

/-- The write that a change makes to the store. -/
inductive Writes (after : RouteCacheEpochStore) : Prop where
  | registers (kind : change.kind = .added)
      (h : routeCacheEpochRegister store change.routeId = (after, .ok))
  | bumps (bumps : change.bumps = true)
      (h : routeCacheEpochBump store change.routeId = some after)
  | nothing (kind : change.kind ≠ .added) (bumps : change.bumps = false) (h : after = store)

/-- What is written down of a change that was made. -/
def plansOf (newEpoch : UInt64) : List TqRouteCacheCleanupPlan :=
  if change.kind = .unchanged then [] else [{ cleanupPlan (some store) change with newEpoch }]

/-- A change is made, or it cannot be made and the store is left as it is. -/
theorem versionRoute_cases :
    (cannotVersion store change ∧ ∃ error, versionRoute (some store) change = .error error) ∨
    ∃ after, Writes store change after ∧ versionRoute (some store) change =
      .ok (some after, plansOf store change (epochOrZero (some after) change.routeId)) := by
  have hnoBump : change.kind ≠ .modified → change.bumps = false := by
    intro hkind
    simp [TqApplyPlanRouteChange.bumps, hkind]
  cases hkind : change.kind with
  | added =>
    rcases register_cases store change.routeId with ⟨after, h, -⟩ | ⟨h, hnew, hfull⟩
    · refine .inr ⟨after, .registers hkind h, ?_⟩
      simp [versionRoute, hkind, registerAdded, h, plansOf]
    · refine .inl ⟨by simp [cannotVersion, hnew, hkind, hfull],
        lit "Failed to register added route: " ++ change.routeId, ?_⟩
      simp [versionRoute, hkind, registerAdded, h]
  | removed =>
    refine .inr ⟨store, .nothing (by simp [hkind]) (hnoBump (by simp [hkind])) rfl, ?_⟩
    simp [versionRoute, hkind, plansOf, cleanupPlan]
  | modified =>
    cases hbumps : change.bumps with
    | false =>
      refine .inr ⟨store, .nothing (by simp [hkind]) hbumps rfl, ?_⟩
      simp [versionRoute, hkind, hbumps, plansOf, cleanupPlan]
    | true =>
      cases hbump : routeCacheEpochBump store change.routeId with
      | none =>
        have hreg := routeCacheEpochBump_none_iff.mp hbump
        refine .inl ⟨by simp [cannotVersion, hreg, hbumps],
          lit "Failed to bump epoch for route: " ++ change.routeId, ?_⟩
        simp [versionRoute, hkind, hbumps, bumpModified, hbump]
      | some after =>
        refine .inr ⟨after, .bumps hbumps hbump, ?_⟩
        simp [versionRoute, hkind, hbumps, bumpModified, hbump, plansOf]
  | unchanged =>
    refine .inr ⟨store, .nothing (by simp [hkind]) (hnoBump (by simp [hkind])) rfl, ?_⟩
    simp [versionRoute, hkind, plansOf]

variable {store change} {after : RouteCacheEpochStore}

theorem bumps_kind (h : change.bumps) : change.kind = .modified := by
  simp only [TqApplyPlanRouteChange.bumps, Bool.and_eq_true, decide_eq_true_eq] at h
  exact h.1

theorem isRegistered_of_bump {routeId : Text}
    (h : routeCacheEpochBump store routeId = some after) : isRegistered store routeId := by
  simp [← (isSome_eq store routeId).1, h]

theorem Writes.can (h : Writes store change after) : cannotVersion store change = false := by
  cases h with
  | registers hkind h =>
    have hbumps : change.bumps = false := by simp [TqApplyPlanRouteChange.bumps, hkind]
    rcases register_cases store change.routeId with ⟨_, -, hroom⟩ | ⟨hfull, -, -⟩
    · cases hreg : isRegistered store change.routeId with
      | true => simp [cannotVersion, hreg]
      | false => simp [cannotVersion, hreg, hbumps, hroom hreg]
    · rw [hfull] at h
      cases h
  | bumps _ h => simp [cannotVersion, isRegistered_of_bump h]
  | nothing hkind hbumps => simp [cannotVersion, hkind, hbumps]

section

variable (h : Writes store change after) (hfits : change.routeId.length < kEpochRouteIdSize)

include h hfits

/-- A change touches the epoch of its own route only. -/
theorem Writes.get (other : Text) : routeCacheEpochGet after other =
      if other = change.routeId then change.effect (routeCacheEpochGet store other)
      else routeCacheEpochGet store other := by
  cases h with
  | registers hkind h =>
    simpa [effect, hkind] using routeCacheEpochGet_register hfits h other
  | bumps hbumps h =>
    simpa [effect, bumps_kind hbumps, hbumps, h] using
      routeCacheEpochGet_bump store change.routeId other
  | nothing hkind hbumps h => simp [effect, hkind, hbumps, h]

theorem Writes.registeredOnce (hstore : RegisteredOnce store) : RegisteredOnce after := by
  cases h with
  | registers _ h => exact hstore.register hfits h
  | bumps _ h => simpa [h] using hstore.bump change.routeId
  | nothing _ _ h => exact h ▸ hstore

end

end Route

/-! ## All routes -/

/-- The changes that are made, one after the other, with what is written down of them. -/
inductive Versioned : RouteCacheEpochStore → RouteChanges → RouteCacheEpochStore →
    List TqRouteCacheCleanupPlan → Prop where
  | nil (store : RouteCacheEpochStore) : Versioned store [] store []
  | cons {store mid after : RouteCacheEpochStore} {change : TqApplyPlanRouteChange}
      {changes : RouteChanges} {routes : List TqRouteCacheCleanupPlan}
      (newEpoch : UInt64) (head : Writes store change mid)
      (tail : Versioned mid changes after routes) :
      Versioned store (change :: changes) after (plansOf store change newEpoch ++ routes)

/-- How the loop ends: behind the last change, or before one that cannot be made. -/
theorem versionEpochsForApply_cases (store : RouteCacheEpochStore) (changes : RouteChanges) :
    ∃ made rest after, changes = made ++ rest ∧
      (versionEpochsForApply (some store) changes).1 = some after ∧
      Versioned store made after (versionEpochsForApply (some store) changes).2.routes ∧
      ((versionEpochsForApply (some store) changes).2.ok ∧ rest = [] ∨
        (versionEpochsForApply (some store) changes).2.ok = false ∧
          ∃ change later, rest = change :: later ∧ cannotVersion after change) := by
  induction changes generalizing store with
  | nil => exact ⟨[], [], store, rfl, rfl, .nil store, .inl ⟨rfl, rfl⟩⟩
  | cons change changes ih =>
    rcases versionRoute_cases store change with
      ⟨hcant, error, herror⟩ | ⟨mid, hwrites, hok⟩
    · refine ⟨[], change :: changes, store, rfl, ?_, ?_, .inr ⟨?_, change, changes, rfl, hcant⟩⟩
      · simp only [versionEpochsForApply, herror]
      · simp only [versionEpochsForApply, herror]
        exact .nil store
      · simp only [versionEpochsForApply, herror]
    · obtain ⟨made, rest, after, hchs, hstore, hmade, hend⟩ := ih mid
      refine ⟨change :: made, rest, after, by rw [hchs, cons_append], ?_, ?_, ?_⟩
      · simpa only [versionEpochsForApply, hok] using hstore
      · simp only [versionEpochsForApply, hok]
        exact .cons _ hwrites hmade
      · simpa only [versionEpochsForApply, hok] using hend

/-- The changes of one route. -/
def changesOf (routeId : Text) (changes : RouteChanges) :
    RouteChanges :=
  changes.filter (·.routeId == routeId)

/-- What the changes of a route make of its epoch. -/
def effects (epoch : Option UInt64) (changes : RouteChanges) : Option UInt64 :=
  changes.foldl (fun epoch change => change.effect epoch) epoch

/-- The epochs that are written down before each of the changes of a route. -/
def savedEpochs : Option UInt64 → RouteChanges → List UInt64
  | _, [] => []
  | epoch, change :: changes => epoch.getD 0 :: savedEpochs (change.effect epoch) changes

section Versioned

variable {store after : RouteCacheEpochStore} {changes : RouteChanges}
  {routes : List TqRouteCacheCleanupPlan}

section

variable (h : Versioned store changes after routes)
  (hfits : ∀ change ∈ changes, change.routeId.length < kEpochRouteIdSize)

include h hfits

theorem Versioned.get (routeId : Text) : routeCacheEpochGet after routeId =
      effects (routeCacheEpochGet store routeId) (changesOf routeId changes) := by
  induction h with
  | nil => rfl
  | @cons store mid after change changes routes newEpoch head tail ih =>
    rw [ih fun other hmem => hfits other (by simp [hmem]), head.get (hfits change (by simp))]
    by_cases hid : routeId = change.routeId
    · simp [changesOf, effects, hid]
    · have hne : ¬(change.routeId == routeId) := by simpa using Ne.symm hid
      simp [changesOf, effects, hid, hne]

theorem Versioned.registeredOnce (hstore : RegisteredOnce store) : RegisteredOnce after := by
  induction h with
  | nil => exact hstore
  | cons _ head _ ih =>
    exact ih (fun other hmem => hfits other (by simp [hmem]))
      (head.registeredOnce (hfits _ (by simp)) hstore)

theorem Versioned.saved (hchd : ∀ change ∈ changes, change.kind ≠ .unchanged) (routeId : Text) :
    (routes.filter (·.routeId == routeId)).map (·.oldEpoch) =
      savedEpochs (routeCacheEpochGet store routeId) (changesOf routeId changes) := by
  induction h with
  | nil => rfl
  | @cons store mid after change changes routes newEpoch head tail ih =>
    have ih := ih (fun other hmem => hfits other (by simp [hmem]))
      fun other hmem => hchd other (by simp [hmem])
    rw [plansOf, if_neg (hchd change (by simp)), filter_append, map_append, ih,
      head.get (hfits change (by simp))]
    by_cases hid : routeId = change.routeId
    · subst hid
      simp [changesOf, savedEpochs, cleanupPlan, epochOrZero]
    · have hne : ¬(change.routeId == routeId) := by simpa using Ne.symm hid
      simp [changesOf, cleanupPlan, hid, hne]

end

end Versioned

/-! ### The epoch of one route -/

theorem effects_some (epoch : UInt64) (changes : RouteChanges) :
    effects (some epoch) changes = some (epoch + UInt64.ofNat (changes.countP (·.bumps))) := by
  induction changes generalizing epoch with
  | nil => simp [effects]
  | cons change _ ih =>
    rw [effects, foldl_cons, ← effects]
    by_cases hbumps : change.bumps
    · rw [show change.effect (some epoch) = some (epoch + 1) by
        simp [effect, bumps_kind hbumps, hbumps], ih,
        countP_cons_of_pos hbumps, UInt64.ofNat_add]
      simp [UInt64.add_assoc, UInt64.add_comm]
    · rw [show change.effect (some epoch) = some epoch by
        simp [effect, hbumps], ih, countP_cons_of_neg hbumps]

theorem savedEpochs_append (epoch : Option UInt64) (changes : RouteChanges)
    (last : TqApplyPlanRouteChange) :
    savedEpochs epoch (changes ++ [last]) =
      savedEpochs epoch changes ++ [(effects epoch changes).getD 0] := by
  induction changes generalizing epoch with
  | nil => rfl
  | cons _ _ ih =>
    simp only [cons_append, savedEpochs, ih]
    rfl

/-! ## Which plans can be versioned -/

section CanVersion

variable (store : RouteCacheEpochStore) (change : TqApplyPlanRouteChange)
  (changes : RouteChanges)

/-- The change registers a route or bumps an epoch. -/
def writesEpoch : Bool :=
  change.bumps || change.kind = .added && !isRegistered store change.routeId

/-- The routes that are registered for a plan. -/
def newRoutes : Finset Text :=
  ((changes.filter fun change =>
    change.kind = .added && !isRegistered store change.routeId).map (·.routeId)).toFinset

/-- Every route to bump is registered, and there is room for the new ones. -/
structure CanVersion : Prop where
  bumped : ∀ change ∈ changes, change.bumps = true → isRegistered store change.routeId = true
  room : newRoutes store changes = ∅ ∨
    store.length + (newRoutes store changes).card ≤ kMaxRouteCacheEpochEntries

variable {store change changes} {after : RouteCacheEpochStore}
  {routes : List TqRouteCacheCleanupPlan}

theorem mem_newRoutes {routeId : Text} :
    routeId ∈ newRoutes store changes ↔ isRegistered store routeId = false ∧
      ∃ change ∈ changes, change.kind = .added ∧ change.routeId = routeId := by
  simp only [newRoutes, mem_toFinset, mem_map, mem_filter, Bool.and_eq_true,
    decide_eq_true_eq, Bool.not_eq_true']
  constructor
  · rintro ⟨change, ⟨hmem, hadded, hnew⟩, rfl⟩
    exact ⟨hnew, change, hmem, hadded, rfl⟩
  · rintro ⟨hnew, change, hmem, hadded, rfl⟩
    exact ⟨change, ⟨hmem, hadded, hnew⟩, rfl⟩

theorem writesEpoch_of_cannotVersion (h : cannotVersion store change) :
    writesEpoch store change := by
  simp only [cannotVersion, writesEpoch, Bool.and_eq_true, Bool.or_eq_true] at h ⊢
  rcases h.2 with hbumps | hadded
  · exact .inl hbumps
  · exact .inr ⟨hadded.1, h.1⟩

theorem Writes.eq_of_not_writesEpoch (h : Writes store change after)
    (hnot : writesEpoch store change = false) : after = store := by
  simp only [writesEpoch, Bool.or_eq_false_iff] at hnot
  cases h with
  | registers hkind h =>
    have hreg : isRegistered store change.routeId := by simpa [hkind] using hnot.2
    rw [routeCacheEpochRegister, ← isRegistered_eq_any, if_pos hreg] at h
    exact (congrArg Prod.fst h).symm
  | bumps hbumps => exact absurd (hbumps.symm.trans hnot.1) (by simp)
  | nothing _ _ h => exact h

/-- Changes that write nothing leave the store as it is. -/
theorem Versioned.eq_of_not_writesEpoch (h : Versioned store changes after routes)
    (hnot : ∀ change ∈ changes, writesEpoch store change = false) : after = store := by
  induction h with
  | nil => rfl
  | cons _ head _ ih =>
    have hmid := head.eq_of_not_writesEpoch (hnot _ (by simp))
    subst hmid
    exact ih fun other hmem => hnot other (by simp [hmem])

/-- A change registers an added route and unregisters none. -/
theorem Writes.isRegistered_eq (h : Writes store change after)
    (hfits : change.routeId.length < kEpochRouteIdSize) (routeId : Text) :
    isRegistered after routeId =
      (isRegistered store routeId || decide (change.kind = .added ∧ routeId = change.routeId)) := by
  rw [isRegistered, h.get hfits]
  by_cases hid : routeId = change.routeId
  · by_cases hkind : change.kind = .added
    · simp [effect, hid, hkind]
    · by_cases hbumps : change.bumps <;>
        simp [effect, hid, hkind, hbumps, isRegistered]
  · simp [hid, isRegistered]

theorem Writes.length_eq (h : Writes store change after) : after.length = store.length +
      if change.kind = .added ∧ isRegistered store change.routeId = false then 1 else 0 := by
  cases h with
  | registers hkind h =>
    rw [routeCacheEpochRegister, ← isRegistered_eq_any] at h
    cases hreg : isRegistered store change.routeId with
    | true =>
      rw [if_pos hreg] at h
      obtain ⟨rfl, -⟩ := Prod.mk.inj h
      simp
    | false =>
      rw [if_neg (by simp [hreg])] at h
      split at h
      · cases h
      · obtain ⟨rfl, -⟩ := Prod.mk.inj h
        simp [hkind]
  | bumps hbumps h =>
    have hsame : after.length = store.length := by
      simpa [h] using congrArg List.length (map_routeId_bump store change.routeId)
    simp [hsame, bumps_kind hbumps]
  | nothing hkind _ h => simp [h, hkind]

section

variable (h : Versioned store changes after routes)
  (hfits : ∀ change ∈ changes, change.routeId.length < kEpochRouteIdSize)

include h hfits

theorem Versioned.isRegistered_iff (routeId : Text) :
    isRegistered after routeId ↔ isRegistered store routeId ∨
      ∃ change ∈ changes, change.kind = .added ∧ change.routeId = routeId := by
  induction h with
  | nil => simp
  | cons _ head _ ih =>
    rw [ih fun other hmem => hfits other (by simp [hmem]), head.isRegistered_eq (hfits _ (by simp))]
    simp [or_assoc, eq_comm (a := routeId)]

theorem Versioned.isRegistered_of_bumps (hmem : change ∈ changes) (hbumps : change.bumps) :
    isRegistered after change.routeId := by
  induction h with
  | nil => cases hmem
  | @cons store mid after head changes routes newEpoch hhead tail ih =>
    have htail : ∀ other ∈ changes, other.routeId.length < kEpochRouteIdSize :=
      fun other hother => hfits other (by simp [hother])
    rcases mem_cons.mp hmem with rfl | hmem
    · refine (tail.isRegistered_iff htail _).mpr (.inl ?_)
      cases hhead with
      | registers hkind => cases hkind.symm.trans (bumps_kind hbumps)
      | bumps _ h => rw [isRegistered_bump h, isRegistered_of_bump h]
      | nothing _ hnone => cases hbumps.symm.trans hnone
    · exact ih htail hmem

/-- Every new route takes an entry, and the last one of them still fits. -/
theorem Versioned.length_eq : after.length = store.length + (newRoutes store changes).card ∧
      (newRoutes store changes = ∅ ∨ after.length ≤ kMaxRouteCacheEpochEntries) := by
  induction h with
  | nil => simp [newRoutes]
  | @cons store mid after change changes routes newEpoch head tail ih =>
    obtain ⟨hlen, hroom⟩ := ih fun other hmem => hfits other (by simp [hmem])
    have hreg := head.isRegistered_eq (hfits change (by simp))
    have hmid := head.length_eq
    by_cases hnew : change.kind = .added ∧ isRegistered store change.routeId = false
    · -- The route is new: from here on it is registered.
      rw [if_pos hnew] at hmid
      have hinsert : newRoutes store (change :: changes) =
          insert change.routeId (newRoutes mid changes) := by
        ext routeId
        rw [Finset.mem_insert, mem_newRoutes, mem_newRoutes, hreg]
        by_cases hid : routeId = change.routeId
        · simp [hid, hnew]
        · simp [hid, Ne.symm hid]
      have hnotMem : change.routeId ∉ newRoutes mid changes := by
        rw [mem_newRoutes, hreg]
        simp [hnew]
      rw [hinsert, Finset.card_insert_of_notMem hnotMem]
      refine ⟨by omega, .inr ?_⟩
      rcases hroom with hempty | hroom
      · have hcan := head.can
        rw [hempty, Finset.card_empty] at hlen
        simp [cannotVersion, hnew] at hcan
        omega
      · exact hroom
    · rw [if_neg hnew] at hmid
      have hsame : newRoutes store (change :: changes) = newRoutes mid changes := by
        ext routeId
        rw [mem_newRoutes, mem_newRoutes, hreg]
        by_cases hid : routeId = change.routeId
        · by_cases hadded : change.kind = .added
          · have hold : isRegistered store change.routeId := by simpa [hadded] using hnew
            simp [hid, hold]
          · simp [hid, hadded]
        · simp [hid, Ne.symm hid]
      rw [hsame]
      exact ⟨by omega, hroom⟩

theorem Versioned.canVersion
    (hkinds : ∀ change ∈ changes, ∀ other ∈ changes, change.kind = .added → other.bumps →
      other.routeId ≠ change.routeId) : CanVersion store changes where
  bumped := by
    induction h with
    | nil => simp
    | @cons store mid after change changes routes newEpoch head tail ih =>
      intro other hmem hbumps
      rcases mem_cons.mp hmem with rfl | htail
      · cases head with
        | registers hkind => cases hkind.symm.trans (bumps_kind hbumps)
        | bumps _ h => exact isRegistered_of_bump h
        | nothing _ hnone => cases hbumps.symm.trans hnone
      · -- No change before this one has added its route.
        have hmid := ih (fun c hc => hfits c (by simp [hc]))
          (fun c hc d hd => hkinds c (by simp [hc]) d (by simp [hd])) other htail hbumps
        rw [head.isRegistered_eq (hfits change (by simp))] at hmid
        rcases Bool.or_eq_true_iff.mp hmid with hold | hadded
        · exact hold
        · obtain ⟨hkind, hid⟩ := of_decide_eq_true hadded
          exact absurd hid (hkinds change (by simp) other hmem hkind hbumps)
  room := by
    obtain ⟨hlen, hroom⟩ := h.length_eq hfits
    exact hroom.imp_right fun hroom => hlen ▸ hroom

theorem Versioned.not_canVersion (hcant : cannotVersion after change)
    (later : RouteChanges) : ¬CanVersion store (changes ++ change :: later) := by
  rintro ⟨hbumped, hroom⟩
  simp only [cannotVersion, Bool.and_eq_true, Bool.not_eq_true', Bool.or_eq_true,
    decide_eq_true_eq] at hcant
  obtain ⟨hafter, hwhy⟩ := hcant
  have hreg := h.isRegistered_iff hfits change.routeId
  simp only [hafter, Bool.false_eq_true, false_iff, not_or] at hreg
  rcases hwhy with hbumps | ⟨hadded, hfull⟩
  · exact hreg.1 (hbumped change (by simp) hbumps)
  -- The new routes of the changes that were made fill the store, and this is one more.
  obtain ⟨hlen, -⟩ := h.length_eq hfits
  have hnew : isRegistered store change.routeId = false := by simpa using hreg.1
  have hsubset : insert change.routeId (newRoutes store changes) ⊆
      newRoutes store (changes ++ change :: later) := by
    intro routeId hmem
    rcases Finset.mem_insert.mp hmem with rfl | hmem
    · exact mem_newRoutes.mpr ⟨hnew, change, by simp, hadded, rfl⟩
    · obtain ⟨hold, other, hother, hkind⟩ := mem_newRoutes.mp hmem
      exact mem_newRoutes.mpr ⟨hold, other, by simp [hother], hkind⟩
  have hnotMem : change.routeId ∉ newRoutes store changes := fun hmem =>
    hreg.2 (mem_newRoutes.mp hmem).2
  have hcard := Finset.card_le_card hsubset
  rw [Finset.card_insert_of_notMem hnotMem] at hcard
  rcases hroom with hempty | hroom
  · rw [hempty, Finset.card_empty] at hcard
    omega
  · omega

end

end CanVersion

/-! ## Cleanup -/

structure RouteCacheCleanupJob where
  routeId : Text
  oldEpoch : UInt64 := 0
  newEpoch : UInt64 := 0
  beforePolicyIdentity : Text := []
  afterPolicyIdentity : Text := []

/-- The queue has the jobs that were enqueued. -/
def enqueueRouteCleanups (queue : Option (List RouteCacheCleanupJob))
    (routes : List TqRouteCacheCleanupPlan) :
    Option (List RouteCacheCleanupJob) × List TqRouteCacheCleanupPlan :=
  match queue with
  | none => (none, routes)
  | some jobs =>
    let required := routes.filter (·.l2CleanupRequired)
    (some (jobs ++ required.map fun route =>
        { routeId := route.routeId, oldEpoch := route.oldEpoch, newEpoch := route.newEpoch
          beforePolicyIdentity := route.beforeRouteIdentity
          afterPolicyIdentity := route.afterRouteIdentity }),
     routes.map fun route => { route with l2CleanupEnqueued := route.l2CleanupRequired })

/-- The cleanup of a route in L1 cannot fail, since both the cache and the id are there. -/
def performL1Cleanups (l1 : Option L1Cache) :
    List TqRouteCacheCleanupPlan → Option L1Cache × List TqRouteCacheCleanupPlan
  | [] => (l1, [])
  | route :: routes =>
    match l1, route.l1CleanupRequired with
    | some cache, true =>
      let cleaned := l1CleanupRouteNamespace cache
        { routeId := some route.routeId, oldEpoch := route.oldEpoch
          oldPolicyIdentity := some route.beforeRouteIdentity }
      let rest := performL1Cleanups (some cleaned.1) routes
      (rest.1,
        { route with
          l1RemovedCount := cleaned.2.removedCount, variantCleanupRequired := true } :: rest.2)
    | _, _ =>
      let rest := performL1Cleanups l1 routes
      (rest.1, route :: rest.2)

end ByteTaper.TaperQuery
