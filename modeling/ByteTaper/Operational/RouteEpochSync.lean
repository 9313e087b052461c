import ByteTaper.TaperQuery.CacheNamespaceVersioning

/-! # Taking epochs back

`route_epoch_sync.cpp`: after a failure the epochs that were written down are put back, in the order in
which they were written down. A route without epoch is written down as `0`, and then removed. So a
route comes back to its epoch unless it had the epoch `0`, or it was changed again after a bump: then
the epoch that counts is the last one written down. -/

namespace ByteTaper.Operational

open ByteTaper.Runtime TaperQuery List

def rollbackRouteEpoch (store : RouteCacheEpochStore) (route : TqRouteCacheCleanupPlan) :
    RouteCacheEpochStore :=
  if route.oldEpoch = 0 then (routeCacheEpochRemove store route.routeId).getD store
  else (routeCacheEpochSet store route.routeId route.oldEpoch).getD store

def rollbackRouteEpochsForApply (epochs : Option RouteCacheEpochStore)
    (routes : List TqRouteCacheCleanupPlan) : Option RouteCacheEpochStore :=
  epochs.map fun store => routes.foldl rollbackRouteEpoch store

/-! ## One route -/

/-- What putting an epoch back makes of the epoch of its route. -/
def restoreEpoch (epoch : Option UInt64) (old : UInt64) : Option UInt64 :=
  if old = 0 then none else epoch.map fun _ => old

variable {store : RouteCacheEpochStore} {changes : RouteChanges} {epoch : UInt64}

theorem routeCacheEpochGet_rollback (hstore : RegisteredOnce store)
    (routes : List TqRouteCacheCleanupPlan) (routeId : Text) :
    routeCacheEpochGet (routes.foldl rollbackRouteEpoch store) routeId =
      ((routes.filter (·.routeId == routeId)).map (·.oldEpoch)).foldl restoreEpoch
        (routeCacheEpochGet store routeId) := by
  induction routes generalizing store with
  | nil => rfl
  | cons route _ ih =>
    have hget : routeCacheEpochGet (rollbackRouteEpoch store route) routeId =
        if routeId = route.routeId then
          restoreEpoch (routeCacheEpochGet store routeId) route.oldEpoch
        else routeCacheEpochGet store routeId := by
      unfold rollbackRouteEpoch restoreEpoch
      split
      · exact routeCacheEpochGet_remove hstore route.routeId routeId
      · exact routeCacheEpochGet_set store route.routeId route.oldEpoch routeId
    have honce : RegisteredOnce (rollbackRouteEpoch store route) := by
      unfold rollbackRouteEpoch
      split
      · exact hstore.remove route.routeId
      · exact hstore.set route.routeId route.oldEpoch
    rw [foldl_cons, ih honce, hget]
    by_cases hid : routeId = route.routeId
    · simp [hid]
    · have hne : ¬(route.routeId == routeId) := by simpa using Ne.symm hid
      simp [hid, hne]

/-! ## Back to the epoch before -/

/-- The epoch of a route after its changes have been made and taken back. -/
def restored (epoch : Option UInt64) (changes : RouteChanges) : Option UInt64 :=
  (savedEpochs epoch changes).foldl restoreEpoch (effects epoch changes)

theorem foldl_restoreEpoch_none (saved : List UInt64) : saved.foldl restoreEpoch none = none := by
  induction saved with
  | nil => rfl
  | cons _ _ ih => simpa [restoreEpoch] using ih

/-- A route whose first epoch is written down as `0` ends up without one. -/
theorem restored_of_zero {epoch : Option UInt64} (h : epoch.getD 0 = 0) (hne : changes ≠ []) :
    restored epoch changes = none := by
  cases changes with
  | nil => exact absurd rfl hne
  | cons =>
    rw [restored, savedEpochs, foldl_cons, h]
    exact foldl_restoreEpoch_none _

theorem savedEpochs_of_noBump (h : ∀ change ∈ changes, change.bumps = false) :
    savedEpochs (some epoch) changes = List.replicate changes.length epoch := by
  induction changes with
  | nil => rfl
  | cons change _ ih =>
    have hsame : change.effect (some epoch) = some epoch := by
      simp [TqApplyPlanRouteChange.effect, h change (by simp)]
    rw [savedEpochs, hsame, ih fun other hmem => h other (by simp [hmem]), length_cons,
      replicate_succ, Option.getD_some]

theorem foldl_restoreEpoch_replicate (h : epoch ≠ 0) (n : Nat) (current : UInt64) :
    ((List.replicate n epoch).foldl restoreEpoch (some current)).isSome := by
  induction n generalizing current with
  | zero => rfl
  | succ n ih => simpa [replicate_succ, restoreEpoch, h] using ih epoch

theorem add_ofNat_eq_self_iff {n : Nat} (hn : n < 2 ^ 64) :
    epoch + UInt64.ofNat n = epoch ↔ n = 0 := by
  rw [← UInt64.toNat_inj, UInt64.toNat_add, UInt64.toNat_ofNat', Nat.mod_eq_of_lt hn]
  have hepoch := epoch.toNat_lt
  omega

/-- The epoch that is written down last is the one that counts. -/
theorem restored_append_iff (hepoch : epoch ≠ 0) (hsize : changes.length < 2 ^ 64)
    (last : TqApplyPlanRouteChange) :
    restored (some epoch) (changes ++ [last]) = some epoch ↔
      ∀ change ∈ changes, change.bumps = false := by
  have hcnt : changes.countP (·.bumps) < 2 ^ 64 := by
    have := countP_le_length (p := fun change => TqApplyPlanRouteChange.bumps change) (l := changes)
    omega
  rw [restored, savedEpochs_append, foldl_append, effects_some, effects_some]
  simp only [Option.getD_some, foldl_cons, foldl_nil]
  constructor
  · intro h
    unfold restoreEpoch at h
    split at h
    · cases h
    · obtain ⟨_, -, hlast⟩ := Option.map_eq_some_iff.mp h
      have hzero := (add_ofNat_eq_self_iff hcnt).mp hlast
      simpa using countP_eq_zero.mp hzero
  · intro h
    have hzero : changes.countP (·.bumps) = 0 := countP_eq_zero.mpr (by simpa using h)
    obtain ⟨current, hcur⟩ := Option.isSome_iff_exists.mp
      (foldl_restoreEpoch_replicate hepoch changes.length
        (epoch + UInt64.ofNat ((changes ++ [last]).countP (·.bumps))))
    rw [savedEpochs_of_noBump h, hcur, hzero]
    simp [restoreEpoch, hepoch]

end ByteTaper.Operational
