import ByteTaper.Library.Calls
import ByteTaper.TaperQuery.PolicyIrValidator
import Mathlib.Data.List.Perm.Subperm

/-! # The epochs of the routes

`route_cache_epoch_store.cpp`: an epoch for every route that is registered. The epoch is part of the
cache keys of the route, so that a bump makes everything unreachable that was stored before. -/

namespace ByteTaper.Runtime

open List
def kInitialRouteCacheEpoch : UInt64 := 1
def kMaxRouteCacheEpochEntries : Nat := 1024
def kEpochRouteIdSize : Nat := 64

structure RouteCacheEpochEntry where
  routeId : Text
  epoch : UInt64 := kInitialRouteCacheEpoch

/-- The entries in use. -/
abbrev RouteCacheEpochStore := List RouteCacheEpochEntry

inductive RouteCacheEpochResult where
  | ok | notFound | invalidArgument | capacityExceeded
deriving DecidableEq

/-- The id is compared as it is given, and cut when it is stored. -/
def routeCacheEpochRegister (store : RouteCacheEpochStore) (routeId : Text) :
    RouteCacheEpochStore × RouteCacheEpochResult :=
  if store.any (·.routeId == routeId) then (store, .ok)
  else if kMaxRouteCacheEpochEntries ≤ store.length then (store, .capacityExceeded)
  else (store ++ [{ routeId := routeId.take (kEpochRouteIdSize - 1) }], .ok)

/-- The epoch of a route, if it is registered. -/
def routeCacheEpochGet : RouteCacheEpochStore → Text → Option UInt64
  | [], _ => none
  | entry :: store, routeId =>
    if entry.routeId = routeId then some entry.epoch else routeCacheEpochGet store routeId

/-- The store with the epoch of the route bumped, or `none` for a route that is not found. -/
def routeCacheEpochBump : RouteCacheEpochStore → Text → Option RouteCacheEpochStore
  | [], _ => none
  | entry :: store, routeId =>
    if entry.routeId = routeId then some ({ entry with epoch := entry.epoch + 1 } :: store)
    else (routeCacheEpochBump store routeId).map (entry :: ·)

/-- The store with the epoch of the route set, or `none` for a route that is not found. -/
def routeCacheEpochSet : RouteCacheEpochStore → Text → UInt64 → Option RouteCacheEpochStore
  | [], _, _ => none
  | entry :: store, routeId, epoch =>
    if entry.routeId = routeId then some ({ entry with epoch } :: store)
    else (routeCacheEpochSet store routeId epoch).map (entry :: ·)

/-- The store without the route, or `none` for a route that is not found. -/
def routeCacheEpochRemove : RouteCacheEpochStore → Text → Option RouteCacheEpochStore
  | [], _ => none
  | entry :: store, routeId =>
    if entry.routeId = routeId then some store
    else (routeCacheEpochRemove store routeId).map (entry :: ·)

variable (store : RouteCacheEpochStore) (routeId : Text)

def isRegistered : Bool :=
  (routeCacheEpochGet store routeId).isSome

theorem isRegistered_eq_any : isRegistered store routeId = store.any (·.routeId == routeId) := by
  induction store with
  | nil => rfl
  | cons entry _ ih =>
    simp only [isRegistered, routeCacheEpochGet, any_cons] at ih ⊢
    by_cases h : entry.routeId = routeId
    · simp [h]
    · rw [if_neg h, beq_false_of_ne h, Bool.false_or]
      exact ih

theorem routeCacheEpochGet_append (front rest : RouteCacheEpochStore) (routeId : Text) :
    routeCacheEpochGet (front ++ rest) routeId =
      (routeCacheEpochGet front routeId).or (routeCacheEpochGet rest routeId) := by
  induction front with
  | nil => rfl
  | cons _ _ ih =>
    simp only [cons_append, routeCacheEpochGet]
    split
    · rfl
    · exact ih

/-- A route is not found, or its first entry is, which is changed or left out. -/
theorem found_cases :
    (routeCacheEpochGet store routeId = none ∧ routeCacheEpochBump store routeId = none ∧
      (∀ epoch, routeCacheEpochSet store routeId epoch = none) ∧
      routeCacheEpochRemove store routeId = none) ∨
    ∃ front entry rest, store = front ++ entry :: rest ∧ entry.routeId = routeId ∧
      routeCacheEpochGet front routeId = none ∧ routeCacheEpochBump store routeId =
        some (front ++ { entry with epoch := entry.epoch + 1 } :: rest) ∧
      (∀ epoch, routeCacheEpochSet store routeId epoch =
        some (front ++ { entry with epoch } :: rest)) ∧
      routeCacheEpochRemove store routeId = some (front ++ rest) := by
  induction store with
  | nil => exact .inl ⟨rfl, rfl, fun _ => rfl, rfl⟩
  | cons head store ih =>
    simp only [routeCacheEpochGet, routeCacheEpochBump, routeCacheEpochSet, routeCacheEpochRemove]
    by_cases h : head.routeId = routeId
    · exact .inr ⟨[], head, store, by simp [h, routeCacheEpochGet]⟩
    · rcases ih with hnone | ⟨front, entry, rest, rfl, hent, hfront, hbump, hset, hremove⟩
      · exact .inl (by simp [h, hnone])
      · refine .inr ⟨head :: front, entry, rest, ?_⟩
        simp [h, hent, hbump, hset, hremove, routeCacheEpochGet, hfront]

/-- The calls that change an entry succeed if the route is registered. -/
theorem isSome_eq :
    (routeCacheEpochBump store routeId).isSome = isRegistered store routeId ∧
      (∀ epoch, (routeCacheEpochSet store routeId epoch).isSome = isRegistered store routeId) ∧
      (routeCacheEpochRemove store routeId).isSome = isRegistered store routeId := by
  rcases found_cases store routeId with hnot | ⟨_, _, _, rfl, hent, _, hbump, hset, hremove⟩
  · simp [isRegistered, hnot]
  · simp [isRegistered_eq_any, hent, hbump, hset, hremove]

/-- A bump adds one to the epoch of its route and leaves those of the others alone. -/
theorem routeCacheEpochGet_bump (other : Text) :
    routeCacheEpochGet ((routeCacheEpochBump store routeId).getD store) other =
      if other = routeId then (routeCacheEpochGet store other).map (· + 1)
      else routeCacheEpochGet store other := by
  rcases found_cases store routeId with ⟨hnot, hbump, -⟩ | ⟨_, _, _, rfl, rfl, hfront, hbump, -⟩
  all_goals
    rw [hbump]
    split
  next hother => simp [hother, hnot]
  next => rfl
  next hother => simp [routeCacheEpochGet_append, routeCacheEpochGet, hother, hfront]
  next hother => simp [routeCacheEpochGet_append, routeCacheEpochGet, Ne.symm hother]

theorem map_routeId_bump :
    ((routeCacheEpochBump store routeId).getD store).map (·.routeId) = store.map (·.routeId) := by
  rcases found_cases store routeId with ⟨-, hbump, -⟩ | ⟨_, _, _, rfl, _, _, hbump, -⟩ <;>
    simp [hbump]

/-- Setting is without effect for a route that is not registered. -/
theorem routeCacheEpochGet_set (epoch : UInt64) (other : Text) :
    routeCacheEpochGet ((routeCacheEpochSet store routeId epoch).getD store) other =
      if other = routeId then (routeCacheEpochGet store other).map fun _ => epoch
      else routeCacheEpochGet store other := by
  rcases found_cases store routeId with ⟨hnot, -, hset, -⟩ | ⟨_, _, _, rfl, rfl, hfront, -, hset, -⟩
  all_goals
    rw [hset]
    split
  next hother => simp [hother, hnot]
  next => rfl
  next hother => simp [routeCacheEpochGet_append, routeCacheEpochGet, hother, hfront]
  next hother => simp [routeCacheEpochGet_append, routeCacheEpochGet, Ne.symm hother]

theorem map_routeId_set (epoch : UInt64) :
    ((routeCacheEpochSet store routeId epoch).getD store).map (·.routeId) =
      store.map (·.routeId) := by
  rcases found_cases store routeId with ⟨-, -, hset, -⟩ | ⟨_, _, _, rfl, _, _, -, hset, -⟩ <;>
    simp [hset]

theorem remove_sublist : ((routeCacheEpochRemove store routeId).getD store).Sublist store := by
  rcases found_cases store routeId with ⟨-, -, -, hremove⟩ | ⟨_, _, _, rfl, _, _, -, -, hremove⟩ <;>
    simp [hremove]

variable {store routeId} {after : RouteCacheEpochStore}

theorem routeCacheEpochBump_none_iff :
    routeCacheEpochBump store routeId = none ↔ isRegistered store routeId = false := by
  simp [← (isSome_eq store routeId).1]

theorem isRegistered_bump (h : routeCacheEpochBump store routeId = some after) :
    isRegistered after = isRegistered store := by
  funext other
  have hget := routeCacheEpochGet_bump store routeId other
  rw [h, Option.getD_some] at hget
  rw [isRegistered, isRegistered, hget]
  split <;> simp

theorem take_eq_iff : routeId.take (kEpochRouteIdSize - 1) = routeId ↔
    routeId.length < kEpochRouteIdSize := by
  refine ⟨fun h => Nat.lt_of_le_pred (by decide) ?_, fun h => take_of_length_le (by omega)⟩
  have hlen := length_take_le (kEpochRouteIdSize - 1) routeId
  rwa [h] at hlen

/-- Registering gives a new route the initial epoch and changes no other one. -/
theorem routeCacheEpochGet_register (hfits : routeId.length < kEpochRouteIdSize)
    (h : routeCacheEpochRegister store routeId = (after, .ok)) (other : Text) :
    routeCacheEpochGet after other =
      if other = routeId then some ((routeCacheEpochGet store other).getD kInitialRouteCacheEpoch)
      else routeCacheEpochGet store other := by
  unfold routeCacheEpochRegister at h
  rw [← isRegistered_eq_any] at h
  split at h
  next hreg =>
    cases h
    split
    next hother =>
      subst hother
      obtain ⟨epoch, hepoch⟩ := Option.isSome_iff_exists.mp hreg
      simp [hepoch]
    next => rfl
  next hreg =>
    split at h
    · cases h
    rw [take_eq_iff.mpr hfits] at h
    cases h
    rw [routeCacheEpochGet_append]
    by_cases hother : other = routeId
    · subst hother
      have hnone : routeCacheEpochGet store other = none := by
        simpa [isRegistered] using hreg
      simp [routeCacheEpochGet, hnone]
    · simp [routeCacheEpochGet, hother, Ne.symm hother]

/-- No route is registered twice. -/
def RegisteredOnce (store : RouteCacheEpochStore) : Prop := (store.map (·.routeId)).Nodup

theorem routeCacheEpochGet_eq_none_of_notMem (h : routeId ∉ store.map (·.routeId)) :
    routeCacheEpochGet store routeId = none := by
  have hany : isRegistered store routeId = false := by
    rw [isRegistered_eq_any]
    simpa using h
  simpa [isRegistered] using hany

theorem routeCacheEpochGet_remove (hstore : RegisteredOnce store) (routeId other : Text) :
    routeCacheEpochGet ((routeCacheEpochRemove store routeId).getD store) other =
      if other = routeId then none else routeCacheEpochGet store other := by
  rcases found_cases store routeId with
    ⟨hnot, -, -, hremove⟩ | ⟨_, _, _, rfl, rfl, hfront, -, -, hremove⟩
  all_goals
    rw [hremove]
    split
  next hother => simp [hother, hnot]
  next => rfl
  next hother =>
    rw [RegisteredOnce, map_append, map_cons] at hstore
    have htail := (nodup_append.mp hstore).2.1
    have hrest := routeCacheEpochGet_eq_none_of_notMem (nodup_cons.mp htail).1
    simp [routeCacheEpochGet_append, hother, hfront, hrest]
  next hother => simp [routeCacheEpochGet_append, routeCacheEpochGet, Ne.symm hother]

section

variable (hstore : RegisteredOnce store)

include hstore

theorem RegisteredOnce.bump (routeId : Text) :
    RegisteredOnce ((routeCacheEpochBump store routeId).getD store) := by
  rwa [RegisteredOnce, map_routeId_bump]

theorem RegisteredOnce.set (routeId : Text) (epoch : UInt64) :
    RegisteredOnce ((routeCacheEpochSet store routeId epoch).getD store) := by
  rwa [RegisteredOnce, map_routeId_set]

theorem RegisteredOnce.remove (routeId : Text) :
    RegisteredOnce ((routeCacheEpochRemove store routeId).getD store) :=
  ((remove_sublist store routeId).map _).nodup hstore

theorem RegisteredOnce.register (hfits : routeId.length < kEpochRouteIdSize)
    (h : routeCacheEpochRegister store routeId = (after, .ok)) : RegisteredOnce after := by
  unfold routeCacheEpochRegister at h
  split at h
  · cases h
    exact hstore
  next hnew =>
    split at h
    · cases h
    cases h
    have hnotMem : routeId ∉ store.map (·.routeId) := by simpa using hnew
    rw [RegisteredOnce, map_append, map_singleton, take_eq_iff.mpr hfits]
    refine nodup_append.mpr ⟨hstore, by simp, fun id hid last hlast heq => ?_⟩
    rw [heq, mem_singleton.mp hlast] at hid
    exact hnotMem hid

end

/-! ## Bumping a list of routes -/

/-- The routes are bumped one after the other, until one is not found; the flag says if all were. -/
def bumpAll (store : RouteCacheEpochStore) : List Text → RouteCacheEpochStore × Bool
  | [] => (store, true)
  | routeId :: routeIds =>
    match routeCacheEpochBump store routeId with
    | none => (store, false)
    | some after => bumpAll after routeIds

/-- Each epoch grows by the number of times that its route is met before the first one that is not
    registered. -/
theorem routeCacheEpochGet_bumpAll (store : RouteCacheEpochStore) (routeIds : List Text)
    (other : Text) :
    routeCacheEpochGet (bumpAll store routeIds).1 other = (routeCacheEpochGet store other).map
        (· + UInt64.ofNat ((routeIds.takeWhile (isRegistered store)).count other)) := by
  induction routeIds generalizing store with
  | nil => simp [bumpAll]
  | cons routeId _ ih =>
    unfold bumpAll
    cases hbump : routeCacheEpochBump store routeId with
    | none =>
      have hreg := routeCacheEpochBump_none_iff.mp hbump
      simp [hreg]
    | some =>
      have hreg : isRegistered store routeId := by simp [← (isSome_eq store routeId).1, hbump]
      have hget := routeCacheEpochGet_bump store routeId other
      rw [hbump, Option.getD_some] at hget
      simp only [ih, isRegistered_bump hbump, hget, takeWhile_cons_of_pos hreg, count_cons]
      by_cases hother : other = routeId
      · subst hother
        cases routeCacheEpochGet store other with
        | none => simp
        | some =>
          simp [UInt64.ofNat_add, UInt64.add_assoc, UInt64.add_comm]
      · have hne : ¬(routeId == other) := by simpa using fun he => hother he.symm
        simp [hother, hne]

/-! ## The store as a map -/

inductive EpochOp where
  | register | get | bump | set (epoch : UInt64) | remove
deriving DecidableEq

def outcome (found : Bool) : RouteCacheEpochResult := if found then .ok else .notFound

/-- A call for a route: the store after it, its result, and the epoch that it gives out. -/
def epochCall (store : RouteCacheEpochStore) :
    Text × EpochOp → RouteCacheEpochStore × RouteCacheEpochResult × Option UInt64
  | (routeId, .register) =>
    let (after, result) := routeCacheEpochRegister store routeId
    (after, result, none)
  | (routeId, .get) =>
    let epoch := routeCacheEpochGet store routeId
    (store, outcome epoch.isSome, epoch)
  | (routeId, .bump) =>
    let after := routeCacheEpochBump store routeId
    (after.getD store, outcome after.isSome, after.bind (routeCacheEpochGet · routeId))
  | (routeId, .set epoch) =>
    let after := routeCacheEpochSet store routeId epoch
    (after.getD store, outcome after.isSome, none)
  | (routeId, .remove) =>
    let after := routeCacheEpochRemove store routeId
    (after.getD store, outcome after.isSome, none)

/-- What a map from routes to epochs makes of the call. -/
def mapCall (epochs : Text → Option UInt64) :
    Text × EpochOp → (Text → Option UInt64) × RouteCacheEpochResult × Option UInt64
  | (routeId, op) =>
    let found := outcome (epochs routeId).isSome
    let change (f : Option UInt64 → Option UInt64) (other : Text) :=
      if other = routeId then f (epochs other) else epochs other
    match op with
    | .register => (change fun epoch => some (epoch.getD kInitialRouteCacheEpoch), .ok, none)
    | .get => (epochs, found, epochs routeId)
    | .bump => (change (·.map (· + 1)), found, (epochs routeId).map (· + 1))
    | .set next => (change (·.map fun _ => next), found, none)
    | .remove => (change fun _ => none, found, none)

/-- Every call of the run is answered as by a map, and no route has two entries. -/
def ActsAsMap (calls : List (Text × EpochOp)) : Prop :=
  (Calls.run epochCall [] calls).2 = (Calls.run mapCall (fun _ => none) calls).2 ∧
    RegisteredOnce (Calls.run epochCall [] calls).1

section Map

variable {ids : List Text} {call : Text × EpochOp}

/-- The routes with an entry are some of the given ones, each with one entry. -/
structure OnceOf (ids : List Text) (store : RouteCacheEpochStore) : Prop where
  once : RegisteredOnce store
  subset : ∀ id, isRegistered store id → id ∈ ids

theorem OnceOf.register_ok (hstore : OnceOf ids store)
    (hids : ids.length ≤ kMaxRouteCacheEpochEntries) (hid : routeId ∈ ids) :
    (routeCacheEpochRegister store routeId).2 = .ok := by
  unfold routeCacheEpochRegister
  split
  · rfl
  next hnew =>
    have hnew : routeId ∉ store.map (·.routeId) := by simpa using hnew
    have hsub : store.map (·.routeId) ⊆ ids := fun id hmem =>
      hstore.subset id (by simpa [isRegistered_eq_any] using hmem)
    have hlen := (subperm_of_subset (nodup_cons.mpr ⟨hnew, hstore.once⟩)
      (cons_subset.mpr ⟨hid, hsub⟩)).length_le
    rw [length_cons, length_map] at hlen
    rw [if_neg (by omega)]

theorem mapCall_of_ne (epochs : Text → Option UInt64) {other : Text} (h : other ≠ call.1) :
    (mapCall epochs call).1 other = epochs other := by
  obtain ⟨routeId, op⟩ := call
  cases op <;> simp_all [mapCall]

section Call

variable (hstore : OnceOf ids store) (hids : ids.length ≤ kMaxRouteCacheEpochEntries)
  (hcall : call.1 ∈ ids ∧ call.1.length < kEpochRouteIdSize)

include hstore hids hcall

/-- A call does to the epochs what it does to a map. -/
theorem mapCall_get : mapCall (routeCacheEpochGet store) call =
      (routeCacheEpochGet (epochCall store call).1, (epochCall store call).2) := by
  obtain ⟨routeId, op⟩ := call
  obtain ⟨hbump, hset, hremove⟩ := isSome_eq store routeId
  simp only [isRegistered] at hbump hset hremove
  cases op with
  | register =>
    have hok := hstore.register_ok hids hcall.1
    have hget := routeCacheEpochGet_register hcall.2 (Prod.ext rfl hok)
    exact Prod.ext (funext fun other => (hget other).symm) (by simp [mapCall, epochCall, hok])
  | get => rfl
  | bump =>
    refine Prod.ext (funext fun other => (routeCacheEpochGet_bump store routeId other).symm) ?_
    have hget := routeCacheEpochGet_bump store routeId routeId
    cases h : routeCacheEpochBump store routeId <;> simp_all [mapCall, epochCall]
  | set epoch =>
    exact Prod.ext (funext fun other => (routeCacheEpochGet_set store routeId epoch other).symm)
      (by simp [mapCall, epochCall, hset])
  | remove =>
    exact Prod.ext (funext fun other => (routeCacheEpochGet_remove hstore.once routeId other).symm)
      (by simp [mapCall, epochCall, hremove])

theorem OnceOf.step : OnceOf ids (epochCall store call).1 where
  once := by
    obtain ⟨routeId, op⟩ := call
    cases op with
    | register =>
      exact hstore.once.register hcall.2 (Prod.ext rfl (hstore.register_ok hids hcall.1))
    | get => exact hstore.once
    | bump => exact hstore.once.bump routeId
    | set epoch => exact hstore.once.set routeId epoch
    | remove => exact hstore.once.remove routeId
  subset id hid := by
    by_cases hother : id = call.1
    · exact hother ▸ hcall.1
    · have hsame := mapCall_of_ne (routeCacheEpochGet store) hother
      rw [mapCall_get hstore hids hcall] at hsame
      exact hstore.subset id (by rwa [isRegistered, ← hsame])

end Call

/-- For no more ids than there are entries: the store answers every sequence of calls for them as a
    map if and only if they all fit. -/
theorem epochStore_acts_as_map_iff (hids : ids.length ≤ kMaxRouteCacheEpochEntries) :
    (∀ calls : List (Text × EpochOp), (∀ call ∈ calls, call.1 ∈ ids) → ActsAsMap calls) ↔
      ∀ id ∈ ids, id.length < kEpochRouteIdSize := by
  constructor
  · intro h id hid
    by_contra hlong
    have hanswers := (h [(id, .register), (id, .get)] (by simp [hid])).1
    have hget : routeCacheEpochGet [{ routeId := id.take (kEpochRouteIdSize - 1) }] id = none :=
      if_neg fun heq => hlong (take_eq_iff.mp heq)
    have hreg : routeCacheEpochRegister [] id =
        ([{ routeId := id.take (kEpochRouteIdSize - 1) }], .ok) := rfl
    simp [Calls.run, Calls.runFrom, hreg, epochCall, hget, mapCall] at hanswers
  · intro hfit calls hcalls
    have hempty : OnceOf ids [] := ⟨nodup_nil, fun _ hin => absurd hin Bool.false_ne_true⟩
    have hfits : ∀ call ∈ calls, call.1 ∈ ids ∧ call.1.length < kEpochRouteIdSize :=
      fun call hmem => ⟨hcalls call hmem, hfit _ (hcalls call hmem)⟩
    obtain ⟨hstore, hanswers⟩ := Calls.run_view routeCacheEpochGet
      (fun _ _ hcall hstore => ⟨hstore.step hids hcall, mapCall_get hstore hids hcall⟩)
      (Calls.along_of_forall fun call hmem _ => hfits call hmem) hempty
    exact ⟨hanswers, hstore.once⟩

end Map

theorem epochStore_acts_as_map_iff_items :
    ActsAsMap [(['a'], .register), (['a'], .bump), (['a'], .get)] :=
  (epochStore_acts_as_map_iff (show [['a']].length ≤ _ by decide)).mpr (by decide) _ (by decide)

/-- The validator accepts an id of 64 bytes. It is cut when it is registered, and not found then. -/
theorem long_id_not_found :
    TaperQuery.hasError (TaperQuery.routeIssues false
      { routeId := replicate 64 'a', matchPrefix := ['/'] }) = false ∧
    ¬ActsAsMap [(replicate 64 'a', .register), (replicate 64 'a', .get)] :=
  ⟨by decide +kernel, fun h => absurd h.1 (by decide +kernel)⟩

end ByteTaper.Runtime
