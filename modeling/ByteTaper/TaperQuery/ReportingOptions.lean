import ByteTaper.Operational.ActivationAtomicity
import ByteTaper.TaperQuery.ApplyService

/-! # What the reporting options of an apply change

Two options of a request only say what the plan reports: the fields of the modified routes, and the routes
that stay the same. The epochs are versioned by the same plan. The routes that stay the same do not
matter there; but a modified route whose fields are not reported is not bumped, and its cached responses
are neither versioned nor cleaned up. -/

namespace ByteTaper.TaperQuery

open ByteTaper.Runtime Operational List Option TqApplyService TqApplyPlanRouteChange

/-! ## Plans with and without field changes -/

def TqApplyPlanRouteChange.withoutFields (change : TqApplyPlanRouteChange) :
    TqApplyPlanRouteChange :=
  { change with fieldChanges := [] }

theorem bumps_withoutFields (change : TqApplyPlanRouteChange) : change.withoutFields.bumps = false := by
  simp [withoutFields, bumps]

section Plans

variable {L : RouteLanguage TqRoutePolicy} (before after : PolicyIr)

theorem plan_withoutFields (unchanged : Bool) :
    buildTaperqueryApplyPlan L ⟨unchanged, false⟩ before after =
      (buildTaperqueryApplyPlan L ⟨unchanged, true⟩ before after).map (·.withoutFields) := by
  have hrts : planRoute L ⟨unchanged, false⟩ before.routes = fun route =>
      (planRoute L ⟨unchanged, true⟩ before.routes route).map (·.withoutFields) := by
    funext route
    unfold planRoute
    dsimp only
    split
    · rfl
    · split_ifs <;> rfl
  have hrem : planRemoval L after.routes = fun route =>
      (planRemoval L after.routes route).map (·.withoutFields) := by
    funext route
    unfold planRemoval
    split <;> rfl
  rw [buildTaperqueryApplyPlan, buildTaperqueryApplyPlan, map_append, map_filterMap,
    map_filterMap, hrts, ← hrem]

theorem plan_changed_eq (fields : Bool) :
    buildTaperqueryApplyPlan L ⟨false, fields⟩ before after =
      (buildTaperqueryApplyPlan L ⟨true, fields⟩ before after).filter (·.kind ≠ .unchanged) := by
  have hrts : planRoute L ⟨false, fields⟩ before.routes = fun route =>
      (planRoute L ⟨true, fields⟩ before.routes route).filter (·.kind ≠ .unchanged) := by
    funext route
    unfold planRoute
    split
    · rfl
    next old _ =>
      by_cases hsame : computeRoutePolicyIdentity L old = computeRoutePolicyIdentity L route
      · simp [hsame, Option.filter]
      · rw [if_pos hsame, if_pos hsame]
        rfl
  have hrem : (fun route => (planRemoval L after.routes route).filter
      (·.kind ≠ .unchanged)) = planRemoval L after.routes := by
    funext route
    unfold planRemoval
    split <;> rfl
  rw [buildTaperqueryApplyPlan, buildTaperqueryApplyPlan, filter_append, filter_filterMap,
    filter_filterMap, hrts, hrem]

end Plans

/-! ## Versioning by the two plans -/

section Versioning

variable {store : RouteCacheEpochStore} {changes : RouteChanges}

theorem versionEpochsForApply_append (epochs : Option RouteCacheEpochStore)
    (made rest : RouteChanges) :
    versionEpochsForApply epochs (made ++ rest) = if (versionEpochsForApply epochs made).2.ok then
        let later := versionEpochsForApply (versionEpochsForApply epochs made).1 rest
        (later.1,
          { later.2 with routes := (versionEpochsForApply epochs made).2.routes ++ later.2.routes })
      else versionEpochsForApply epochs made := by
  induction made generalizing epochs with
  | nil => rfl
  | cons change _ ih =>
    rw [cons_append, versionEpochsForApply, versionEpochsForApply]
    cases versionRoute epochs change with
    | error => rfl
    | ok next =>
      obtain ⟨after, plans⟩ := next
      dsimp only
      rw [ih]
      split <;> simp

/-- Versioning the changes succeeds or fails, and ends with the epochs `after`. -/
def VersionsTo (store : RouteCacheEpochStore) (changes : RouteChanges)
    (after : RouteCacheEpochStore) (ok : Bool) : Prop :=
  (versionEpochsForApply (some store) changes).1 = some after ∧
    (versionEpochsForApply (some store) changes).2.ok = ok

variable {mid after : RouteCacheEpochStore} {made rest : RouteChanges} {ok : Bool}
  {change : TqApplyPlanRouteChange}

theorem VersionsTo.append_iff (h : VersionsTo store made mid true) :
    VersionsTo store (made ++ rest) after ok ↔ VersionsTo mid rest after ok := by
  rw [VersionsTo, versionEpochsForApply_append, if_pos h.2, h.1]
  rfl

theorem VersionsTo.append_failed (h : VersionsTo store made after false) :
    VersionsTo store (made ++ rest) after false := by
  rw [VersionsTo, versionEpochsForApply_append, if_neg (by simp [h.2])]
  exact h

section

variable (epochs : Option RouteCacheEpochStore)

/-- Routes that stay the same are passed over. -/
theorem versionEpochsForApply_changed (changes : RouteChanges) :
    versionEpochsForApply epochs (changes.filter (·.kind ≠ .unchanged)) =
      versionEpochsForApply epochs changes := by
  induction changes generalizing epochs with
  | nil => rfl
  | cons change _ ih =>
    by_cases hkind : change.kind = .unchanged
    · rw [filter_cons_of_neg (by simp [hkind]), ih]
      simp [versionEpochsForApply, versionRoute, hkind]
    · rw [filter_cons_of_pos (by simp [hkind]), versionEpochsForApply, versionEpochsForApply]
      cases versionRoute epochs change with
      | error => rfl
      | ok =>
        dsimp only
        rw [ih]

theorem versionRoute_withoutFields (h : change.bumps = false) :
    versionRoute epochs change.withoutFields = versionRoute epochs change := by
  have hplan : cleanupPlan epochs change.withoutFields = cleanupPlan epochs change := by
    rw [cleanupPlan, cleanupPlan, h, bumps_withoutFields]
    rfl
  have hreg : registerAdded epochs change.withoutFields = registerAdded epochs change := by
    unfold registerAdded
    rw [hplan]
    rfl
  have hkind : change.withoutFields.kind = change.kind := rfl
  simp [versionRoute, hkind, hreg, hplan, bumps_withoutFields, h]

/-- Without a bump the field changes do not matter. -/
theorem versionEpochsForApply_withoutFields (h : ∀ change ∈ changes, change.bumps = false) :
    versionEpochsForApply epochs (changes.map (·.withoutFields)) =
      versionEpochsForApply epochs changes := by
  induction changes generalizing epochs with
  | nil => rfl
  | cons change _ ih =>
    rw [map_cons, versionEpochsForApply, versionEpochsForApply,
      versionRoute_withoutFields epochs (h change (by simp))]
    cases versionRoute epochs change with
    | error => rfl
    | ok next =>
      dsimp only
      rw [ih next.1 fun other hmem => h other (by simp [hmem])]

end

end Versioning

/-! ## When the two plans do the same -/

/-- Both versionings stop before anything is bumped: there is no room for the routes that are added before
    the first bump, or they fill the store, the route to bump is not registered, and one more is added
    later. -/
def StopsUnbumped (store : RouteCacheEpochStore) (plan : RouteChanges) : Prop :=
  ∃ ahead rest, plan = ahead ++ rest ∧ (∀ change ∈ ahead, change.bumps = false) ∧
    (¬CanVersion store ahead ∨
      ∃ bump later, rest = bump :: later ∧ bump.bumps = true ∧
        isRegistered store bump.routeId = false ∧
        kMaxRouteCacheEpochEntries ≤ store.length + (newRoutes store ahead).card ∧
        newRoutes store ahead ≠ newRoutes store plan)

/-- A plan of readable policies: the ids fit into the entries, a route is not both added and modified, and
    there are fewer changes than epochs. -/
structure ReadablePlan (plan : RouteChanges) : Prop where
  ids : ∀ change ∈ plan, change.routeId.length < kEpochRouteIdSize
  kinds : ∀ change ∈ plan, ∀ other ∈ plan, change.kind = .added → other.bumps = true →
    other.routeId ≠ change.routeId
  size : plan.length < 2 ^ 64

namespace ReadablePlan

variable {plan part : RouteChanges}

theorem sublist (h : ReadablePlan plan) (hpart : part.Sublist plan) : ReadablePlan part where
  ids change hmem := h.ids change (hpart.subset hmem)
  kinds change hmem other hother := h.kinds change (hpart.subset hmem) other (hpart.subset hother)
  size := Nat.lt_of_le_of_lt hpart.length_le h.size

theorem withoutFields (h : ReadablePlan plan) : ReadablePlan (plan.map (·.withoutFields)) where
  ids change hmem := by
    obtain ⟨original, horig, rfl⟩ := mem_map.mp hmem
    exact h.ids original horig
  kinds change _ other hother _ hbumps := by
    obtain ⟨original, -, rfl⟩ := mem_map.mp hother
    rw [bumps_withoutFields] at hbumps
    cases hbumps
  size := by simpa using h.size

end ReadablePlan

section Same

variable {store after : RouteCacheEpochStore} {plan : RouteChanges}
  {routes : List TqRouteCacheCleanupPlan}

theorem noBumps_withoutFields : ∀ change ∈ plan.map (·.withoutFields), change.bumps = false := by
  intro change hmem
  obtain ⟨original, -, rfl⟩ := mem_map.mp hmem
  exact bumps_withoutFields original

theorem versionEpochsForApply_ok_iff (hplan : ReadablePlan plan) :
    (versionEpochsForApply (some store) plan).2.ok ↔ CanVersion store plan := by
  obtain ⟨made, rest, after, hchs, -, hmade, hend⟩ := versionEpochsForApply_cases store plan
  rcases hend with ⟨hok, hrest⟩ | ⟨hfail, change, later, hrest, hcant⟩
  · subst hrest
    rw [append_nil] at hchs
    subst hchs
    exact iff_of_true hok (hmade.canVersion hplan.ids hplan.kinds)
  · subst hrest
    have hids : ∀ other ∈ made, other.routeId.length < kEpochRouteIdSize := fun other hmem =>
      hplan.ids other (hchs ▸ mem_append_left _ hmem)
    refine iff_of_false (by simp [hfail]) ?_
    rw [hchs]
    exact hmade.not_canVersion hids hcant later

theorem exists_versionsTo (store plan) :
    ∃ after, VersionsTo store plan after (versionEpochsForApply (some store) plan).2.ok := by
  obtain ⟨_, _, after, -, hstore, -⟩ := versionEpochsForApply_cases store plan
  exact ⟨after, hstore, rfl⟩

/-- What versioning a plan that can be versioned comes to. -/
theorem versioned_of_canVersion (hplan : ReadablePlan plan) (hcan : CanVersion store plan) :
    ∃ after routes, VersionsTo store plan after true ∧ Versioned store plan after routes := by
  obtain ⟨made, rest, after, hchs, hstore, hmade, hend⟩ := versionEpochsForApply_cases store plan
  have hok := (versionEpochsForApply_ok_iff hplan).mpr hcan
  rcases hend with ⟨-, hrest⟩ | ⟨hfail, -⟩
  · subst hrest
    rw [append_nil] at hchs
    subst hchs
    exact ⟨after, _, ⟨hstore, hok⟩, hmade⟩
  · cases hok.symm.trans hfail

/-- The new routes are the ones that versioning has registered. -/
theorem Versioned.mem_newRoutes_iff (h : Versioned store plan after routes)
    (hids : ∀ change ∈ plan, change.routeId.length < kEpochRouteIdSize) (routeId : Text) :
    routeId ∈ newRoutes store plan ↔
      isRegistered store routeId = false ∧ isRegistered after routeId := by
  rw [mem_newRoutes, h.isRegistered_iff hids]
  constructor
  · rintro ⟨hnew, hadded⟩
    exact ⟨hnew, .inr hadded⟩
  · rintro ⟨hnew, hold | hadded⟩
    · rw [hnew] at hold
      cases hold
    · exact ⟨hnew, hadded⟩

/-- Into a full store nothing is registered. -/
theorem versionEpochsForApply_full (hplan : ReadablePlan plan)
    (hbumps : ∀ change ∈ plan, change.bumps = false)
    (hfull : kMaxRouteCacheEpochEntries ≤ store.length) :
    (versionEpochsForApply (some store) plan).1 = some store := by
  obtain ⟨made, rest, after, hchs, hstore, hmade, -⟩ := versionEpochsForApply_cases store plan
  have hmem : ∀ change ∈ made, change ∈ plan := fun change h => hchs ▸ mem_append_left _ h
  obtain ⟨hlen, hroom⟩ := hmade.length_eq fun change h => hplan.ids change (hmem change h)
  have hnone : newRoutes store made = ∅ := by
    rcases hroom with hnone | hroom
    · exact hnone
    · exact Finset.card_eq_zero.mp (by omega)
  rw [hstore, hmade.eq_of_not_writesEpoch fun change h => ?_]
  rw [writesEpoch, hbumps change (hmem change h), Bool.false_or]
  by_contra hwrites
  simp only [Bool.and_eq_true, decide_eq_true_eq, Bool.not_eq_true', Bool.not_eq_false] at hwrites
  have hnew : change.routeId ∈ newRoutes store made :=
    mem_newRoutes.mpr ⟨hwrites.2, change, h, hwrites.1, rfl⟩
  rw [hnone] at hnew
  exact Finset.notMem_empty _ hnew

/-- The two versionings end with the same epochs, and both succeed or both fail. -/
structure VersionsAlike (store : RouteCacheEpochStore) (plan : RouteChanges) : Prop where
  epochs : ∀ routeId,
    (versionEpochsForApply (some store) plan).1.bind (routeCacheEpochGet · routeId) =
      (versionEpochsForApply (some store) (plan.map (·.withoutFields))).1.bind
        (routeCacheEpochGet · routeId)
  ok : (versionEpochsForApply (some store) plan).2.ok =
    (versionEpochsForApply (some store) (plan.map (·.withoutFields))).2.ok

variable {bump : TqApplyPlanRouteChange} {ahead later made : RouteChanges}

/-- A bump of a route that is not registered ends the versioning. -/
theorem versionsTo_bump (later : RouteChanges) (hbump : bump.bumps)
    (hnot : isRegistered after bump.routeId = false) :
    VersionsTo after (bump :: later) after false := by
  obtain ⟨error, herror⟩ : ∃ error, versionRoute (some after) bump = .error error := by
    rcases versionRoute_cases after bump with ⟨-, herror⟩ | ⟨_, hwrites, -⟩
    · exact herror
    · have hcan := hwrites.can
      simp [cannotVersion, hnot, hbump] at hcan
  simp [VersionsTo, versionEpochsForApply, herror]

theorem isRegistered_bump_iff (hplan : ReadablePlan (ahead ++ bump :: later))
    (hbump : bump.bumps) (hahead : Versioned store ahead after routes) :
    isRegistered after bump.routeId = isRegistered store bump.routeId := by
  rw [Bool.eq_iff_iff, hahead.isRegistered_iff
    (hplan.sublist (sublist_append_left _ _)).ids, or_iff_left_iff_imp]
  rintro ⟨change, hmem, hkind, hid⟩
  exact absurd hid.symm (hplan.kinds change (mem_append_left _ hmem) bump (by simp) hkind hbump)

/-- A new route that is not among the ones ahead is still new behind them. -/
theorem exists_newRoute_later {rest} (hahead : ReadablePlan ahead)
    (hvers : Versioned store ahead after routes)
    (hmore : newRoutes store ahead ≠ newRoutes store (ahead ++ rest)) :
    ∃ routeId, routeId ∈ newRoutes after (rest.map (·.withoutFields)) := by
  have hsubset : newRoutes store ahead ⊆ newRoutes store (ahead ++ rest) := by
    intro routeId hmem
    obtain ⟨hnew, change, hchg, hkind⟩ := mem_newRoutes.mp hmem
    exact mem_newRoutes.mpr ⟨hnew, change, mem_append_left _ hchg, hkind⟩
  obtain ⟨routeId, hmem, hnot⟩ :=
    Finset.exists_of_ssubset (Finset.ssubset_iff_subset_ne.mpr ⟨hsubset, hmore⟩)
  obtain ⟨hnew, change, hchg, hkind, hid⟩ := mem_newRoutes.mp hmem
  refine ⟨routeId, mem_newRoutes.mpr ⟨?_, change.withoutFields, ?_, hkind, hid⟩⟩
  · by_contra hreg
    exact hnot ((hvers.mem_newRoutes_iff hahead.ids routeId).mpr ⟨hnew, by simpa using hreg⟩)
  · rcases mem_append.mp hchg with hchg | hchg
    · exact absurd (mem_newRoutes.mpr ⟨hnew, change, hchg, hkind, hid⟩) hnot
    · exact mem_map_of_mem hchg

theorem stopsUnbumped_alike (hplan : ReadablePlan plan) (h : StopsUnbumped store plan) :
    ∃ after, VersionsTo store plan after false ∧
      VersionsTo store (plan.map (·.withoutFields)) after false := by
  obtain ⟨ahead, rest, rfl, hahead, hstops⟩ := h
  have hrd := hplan.sublist (sublist_append_left ahead rest)
  have hsame : ∀ {after ok}, VersionsTo store ahead after ok →
      VersionsTo store (ahead.map (·.withoutFields)) after ok := by
    intro after ok hto
    rwa [VersionsTo, versionEpochsForApply_withoutFields (some store) hahead]
  rw [map_append]
  by_cases hcan : CanVersion store ahead
  · -- The routes ahead are registered in both; then one stops at the bump, and the other at a new route.
    obtain ⟨bump, later, rfl, hbump, hnot, hfull, hmore⟩ := hstops.resolve_left (not_not.mpr hcan)
    obtain ⟨after, _, hafter, hvers⟩ := versioned_of_canVersion hrd hcan
    have hunreg : isRegistered after bump.routeId = false :=
      (isRegistered_bump_iff hplan hbump hvers).trans hnot
    have hrest : ReadablePlan ((bump :: later).map (·.withoutFields)) :=
      (hplan.sublist (sublist_append_right ahead _)).withoutFields
    have hlen : kMaxRouteCacheEpochEntries ≤ after.length := by
      rw [(hvers.length_eq hrd.ids).1]
      exact hfull
    have hkept := versionEpochsForApply_full hrest noBumps_withoutFields hlen
    have hcant : ¬CanVersion after ((bump :: later).map (·.withoutFields)) := by
      intro hroom
      obtain ⟨routeId, hnew⟩ := exists_newRoute_later hrd hvers hmore
      have hcard := Finset.card_pos.mpr ⟨routeId, hnew⟩
      rcases hroom.room with hnone | hroom
      · rw [hnone, Finset.card_empty] at hcard
        omega
      · omega
    refine ⟨after, hafter.append_iff.mpr (versionsTo_bump later hbump hunreg),
      (hsame hafter).append_iff.mpr ⟨hkept, ?_⟩⟩
    exact Bool.eq_false_iff.mpr (mt (versionEpochsForApply_ok_iff hrest).mp hcant)
  · obtain ⟨after, hafter⟩ := exists_versionsTo store ahead
    rw [Bool.eq_false_iff.mpr (mt (versionEpochsForApply_ok_iff hrd).mp hcan)] at hafter
    exact ⟨after, hafter.append_failed, (hsame hafter).append_failed⟩

/-- A registered route that is bumped does not come back to its epoch. -/
theorem epoch_ne_of_bumped {epoch : UInt64}
    (hepoch : routeCacheEpochGet store bump.routeId = some epoch)
    (hmade : Versioned store made after routes) (hrd : ReadablePlan made)
    (hmem : bump ∈ made) (hbump : bump.bumps) :
    routeCacheEpochGet after bump.routeId ≠ some epoch := by
  have hcnt : 0 < (changesOf bump.routeId made).countP (·.bumps) :=
    countP_pos_iff.mpr ⟨bump, mem_filter.mpr ⟨hmem, by simp⟩, hbump⟩
  have hsize : (changesOf bump.routeId made).countP (·.bumps) < 2 ^ 64 := by
    have hle := countP_le_length (p := fun change => bumps change)
      (l := changesOf bump.routeId made)
    have hfilt : (changesOf bump.routeId made).length ≤ made.length := length_filter_le _ _
    have hlen := hrd.size
    omega
  rw [hmade.get hrd.ids, hepoch, effects_some]
  intro hsame
  have hzero := (add_ofNat_eq_self_iff hsize).mp (some.inj hsame)
  omega

theorem Versioned.append {mid first second} (hmade : Versioned store made mid first)
    (hlater : Versioned mid later after second) :
    Versioned store (made ++ later) after (first ++ second) := by
  induction hmade with
  | nil => exact hlater
  | cons newEpoch head _ ih =>
    rw [cons_append, append_assoc]
    exact .cons newEpoch head (ih hlater)

/-- The first bump of a registered route is made. -/
theorem bump_made (hplan : ReadablePlan (ahead ++ bump :: later))
    (hahead : ∀ change ∈ ahead, change.bumps = false) (hcan : CanVersion store ahead)
    (hbump : bump.bumps) (hreg : isRegistered store bump.routeId) :
    ∃ made after routes ok, VersionsTo store (ahead ++ bump :: later) after ok ∧
      Versioned store made after routes ∧ made.Sublist (ahead ++ bump :: later) ∧ bump ∈ made := by
  have hsplit : ahead ++ bump :: later = (ahead ++ [bump]) ++ later := by simp
  have hrd : ReadablePlan (ahead ++ [bump]) :=
    hplan.sublist (hsplit ▸ sublist_append_left _ _)
  have hnew : newRoutes store (ahead ++ [bump]) = newRoutes store ahead := by
    ext routeId
    simp [mem_newRoutes, bumps_kind hbump, or_and_right, exists_or]
  have hfst : CanVersion store (ahead ++ [bump]) := by
    refine ⟨fun change hmem hbumps => ?_, hnew ▸ hcan.room⟩
    rcases mem_append.mp hmem with hmem | hmem
    · cases (hahead change hmem).symm.trans hbumps
    · exact mem_singleton.mp hmem ▸ hreg
  obtain ⟨mid, _, hmid, hvers⟩ := versioned_of_canVersion hrd hfst
  obtain ⟨made, rest, after, hlater, hafter, hmade, -⟩ := versionEpochsForApply_cases mid later
  rw [hsplit]
  refine ⟨(ahead ++ [bump]) ++ made, after, _, _, hmid.append_iff.mpr ⟨hafter, rfl⟩,
    hvers.append hmade, ?_, by simp⟩
  exact List.Sublist.append_left (hlater ▸ sublist_append_left made rest) _

/-- Without field changes the versioning stops at a new route for which there is no room. -/
theorem full_of_stopped (hplan : ReadablePlan plan) (hahead : ReadablePlan ahead)
    (hvers : Versioned store ahead after routes) {stopped}
    (hstop : VersionsTo store (plan.map (·.withoutFields)) stopped false)
    (hreg : isRegistered after = isRegistered stopped) :
    kMaxRouteCacheEpochEntries ≤ store.length + (newRoutes store ahead).card ∧
      newRoutes store ahead ≠ newRoutes store plan := by
  obtain ⟨made, rest, _, hchs, hstop', hmade, hend⟩ :=
    versionEpochsForApply_cases store (plan.map (·.withoutFields))
  obtain rfl := some.inj (hstop.1.symm.trans hstop')
  obtain ⟨hok, -⟩ | ⟨-, change, later, rfl, hcant⟩ := hend
  · cases hok.symm.trans hstop.2
  have hids : ∀ other ∈ made, other.routeId.length < kEpochRouteIdSize := fun other hmem =>
    hplan.withoutFields.ids other (hchs ▸ mem_append_left _ hmem)
  have hnew : newRoutes store made = newRoutes store ahead := by
    ext routeId
    rw [hmade.mem_newRoutes_iff hids, hvers.mem_newRoutes_iff hahead.ids, hreg]
  have hmem : change ∈ plan.map (·.withoutFields) := by simp [hchs]
  obtain ⟨original, horig, rfl⟩ := mem_map.mp hmem
  simp only [cannotVersion, bumps_withoutFields, Bool.and_eq_true, Bool.not_eq_true', Bool.false_or,
    decide_eq_true_eq] at hcant
  obtain ⟨hunreg, hadded, hfull⟩ := hcant
  refine ⟨by rw [← hnew, ← (hmade.length_eq hids).1]; exact hfull, fun hsets => ?_⟩
  -- The route that stops it is new, but not registered ahead.
  have hnotNew : original.routeId ∉ newRoutes store ahead := by
    rw [← hnew, hmade.mem_newRoutes_iff hids]
    rintro ⟨-, h⟩
    exact Bool.false_ne_true (hunreg.symm.trans h)
  have hold : isRegistered store original.routeId = false := by
    by_contra hold
    have := (hmade.isRegistered_iff hids original.routeId).mpr (.inl (by simpa using hold))
    exact Bool.false_ne_true (hunreg.symm.trans this)
  exact hnotNew (hsets ▸ mem_newRoutes.mpr ⟨hold, original, horig, hadded, rfl⟩)

theorem stopsUnbumped_of_alike (hplan : ReadablePlan plan) (h : VersionsAlike store plan)
    (hbumps : ∃ change ∈ plan, change.bumps) : StopsUnbumped store plan := by
  have hsome : (plan.find? (·.bumps)).isSome := find?_isSome.mpr hbumps
  obtain ⟨bump, hfind⟩ := isSome_iff_exists.mp hsome
  obtain ⟨hbump, ahead, later, rfl, hnone⟩ := find?_eq_some_iff_append.mp hfind
  have hahead : ∀ change ∈ ahead, change.bumps = false := fun change hmem => by
    simpa using hnone change hmem
  refine ⟨ahead, bump :: later, rfl, hahead, ?_⟩
  by_cases hcan : CanVersion store ahead
  · have hrd := hplan.sublist (sublist_append_left ahead (bump :: later))
    obtain ⟨after, _, hafter, hvers⟩ := versioned_of_canVersion hrd hcan
    cases hreg : isRegistered store bump.routeId with
    | true =>
      -- The bump is made with the field changes only.
      obtain ⟨made, bumped, _, _, hbumped, hmade, hsub, hmem⟩ :=
        bump_made hplan hahead hcan hbump hreg
      obtain ⟨epoch, hepoch⟩ := isSome_iff_exists.mp hreg
      obtain ⟨kept, rest, stopped, hchs, hstop, hkept, -⟩ := versionEpochsForApply_cases store
        ((ahead ++ bump :: later).map (·.withoutFields))
      have hsub' : kept.Sublist ((ahead ++ bump :: later).map (·.withoutFields)) :=
        hchs ▸ sublist_append_left kept rest
      have hcnt : (changesOf bump.routeId kept).countP (·.bumps) = 0 :=
        countP_eq_zero.mpr fun change hmem => by
          simp [noBumps_withoutFields change (hsub'.subset (mem_of_mem_filter hmem))]
      have hsame := h.epochs bump.routeId
      rw [hbumped.1, hstop, bind_some, bind_some,
        hkept.get (hplan.withoutFields.sublist hsub').ids, hepoch, effects_some, hcnt] at hsame
      rw [show epoch + UInt64.ofNat 0 = epoch from UInt64.add_zero epoch] at hsame
      exact absurd hsame (epoch_ne_of_bumped hepoch hmade (hplan.sublist hsub) hmem hbump)
    | false =>
      have hfst := hafter.append_iff.mpr (versionsTo_bump later hbump
        ((isRegistered_bump_iff hplan hbump hvers).trans hreg))
      obtain ⟨stopped, hstop⟩ := exists_versionsTo store
        ((ahead ++ bump :: later).map (·.withoutFields))
      rw [← h.ok, hfst.2] at hstop
      refine .inr ⟨bump, later, rfl, hbump, hreg, full_of_stopped hplan hrd hvers hstop ?_⟩
      funext routeId
      have hsame := h.epochs routeId
      rw [hfst.1, hstop.1] at hsame
      exact congrArg isSome hsame
  · exact .inl hcan

end Same

/-! ## Two requests that differ in their reporting options -/

def TqApplyRequest.reporting (request : TqApplyRequest) (options : TqApplyPlanOptions) :
    TqApplyRequest :=
  { request with
    includeUnchangedRoutes := options.includeUnchangedRoutes
    includeFieldLevelChanges := options.includeFieldLevelChanges }

/-- The same snapshot is served, every route has the same epoch, and L1 has the same content. -/
structure SameEffect (first second : ApplyServiceState) : Prop where
  snapshot : first.policyStore.bind (·.active) = second.policyStore.bind (·.active)
  epochs : ∀ routeId, first.registeredEpoch routeId = second.registeredEpoch routeId
  l1 : first.l1 = second.l1

theorem SameEffect.refl (state : ApplyServiceState) : SameEffect state state :=
  ⟨rfl, fun _ => rfl, rfl⟩

theorem SameEffect.symm {first second : ApplyServiceState} (h : SameEffect first second) :
    SameEffect second first :=
  ⟨h.snapshot.symm, fun routeId => (h.epochs routeId).symm, h.l1.symm⟩

/-- What an apply makes of the state once the policy has been persisted and the epochs versioned. -/
def afterVersioning (state : ApplyServiceState) (directory : StateDirectory)
    (snapshot : RuntimePolicySnapshot)
    (versioned : Option RouteCacheEpochStore × TqCacheNamespaceApplyResult) : ApplyServiceState :=
  if versioned.2.ok = false then { state with directory, epochs := versioned.1 }
  else
    let cleaned := performL1Cleanups state.l1 versioned.2.routes
    { state with
      directory, epochs := versioned.1, policyStore := some (.serving snapshot), l1 := cleaned.1
      cleanupQueue := (enqueueRouteCleanups state.cleanupQueue cleaned.2).1 }

open RuntimePolicyStore

section Effect

variable {α : Type} {F : TqFrontEnd α} {L : IrLanguage}
  {config : LocalPolicyPersistenceConfig} {call : ApplyCall} {request : TqApplyRequest}
  {state : ApplyServiceState} {current : RuntimePolicySnapshot}
  {candidate parsed : PolicyIr} (options : TqApplyPlanOptions)

variable (L config call request current candidate parsed) in
/-- The files do not depend on what is reported. -/
def persistOutcome (dir : StateDirectory) : StateDirectory × Except Text Unit :=
  persistApply L config call request
    (preparedOf L request (.serving current) current candidate parsed {}) dir

section

variable (h : PassesChecks F L request state.policyStore (.serving current) current candidate parsed)

include h

theorem PassesChecks.reporting :
    PassesChecks F L (request.reporting options) state.policyStore (.serving current) current candidate
      parsed :=
  ⟨h.configured, h.wellFormed, h.active, h.base, h.compiled, h.valid, h.plan, h.reparsed, h.identity,
    h.mode⟩

theorem executeImpl_of_passes :
    (executeImpl L config call (request.reporting options) F state).1 =
      match persistOutcome L config call request current candidate parsed state.directory with
      | (directory, .error _) => { state with directory }
      | (directory, .ok _) =>
        afterVersioning state directory (nextSnapshot L current parsed)
          (syncRouteEpochs state.epochs
            (buildTaperqueryApplyPlan L.toRouteLanguage options current.policyIr candidate)) := by
  obtain ⟨result, hprep⟩ := (h.reporting options).prepareApply
  have hpers : persistApply L config call (request.reporting options)
      (preparedOf L (request.reporting options) (.serving current) current candidate parsed result)
      state.directory =
      persistOutcome L config call request current candidate parsed state.directory := rfl
  have hplan : (preparedOf L (request.reporting options) (.serving current) current candidate parsed
      result).plan.routeChanges =
      buildTaperqueryApplyPlan L.toRouteLanguage options current.policyIr candidate := rfl
  rw [executeImpl, hprep]
  dsimp only
  rcases commitApply_cases L config call (request.reporting options) state
    (p := preparedOf L (request.reporting options) (.serving current) current candidate parsed result)
    rfl rfl with ⟨directory, error, hout, hstate, -⟩ | ⟨directory, hout, hok, hstate, -⟩ |
      ⟨directory, hout, hok, hstate⟩
  · rw [hpers] at hout
    rw [hstate, hout]
  · rw [hpers] at hout
    rw [hplan] at hok hstate
    rw [hstate, hout]
    simp [afterVersioning, hok]
  · rw [hpers] at hout
    rw [hplan] at hok hstate
    rw [hstate, hout]
    simp only [afterVersioning, hok, Bool.true_eq_false, if_false]
    rfl

end

/-- The options matter to the versioning in the field changes only. -/
theorem versionEpochsForApply_reported (epochs : Option RouteCacheEpochStore)
    (before after : PolicyIr) :
    versionEpochsForApply epochs (buildTaperqueryApplyPlan L.toRouteLanguage options before after) =
      versionEpochsForApply epochs (if options.includeFieldLevelChanges then
          buildTaperqueryApplyPlan L.toRouteLanguage {} before after
        else (buildTaperqueryApplyPlan L.toRouteLanguage {} before after).map (·.withoutFields)) := by
  obtain ⟨unchanged, fields⟩ := options
  have hchd : versionEpochsForApply epochs
      (buildTaperqueryApplyPlan L.toRouteLanguage ⟨unchanged, fields⟩ before after) =
      versionEpochsForApply epochs
        (buildTaperqueryApplyPlan L.toRouteLanguage ⟨false, fields⟩ before after) := by
    cases unchanged with
    | false => rfl
    | true => rw [plan_changed_eq, versionEpochsForApply_changed]
  rw [hchd]
  cases fields with
  | false => rw [plan_withoutFields]; rfl
  | true => rfl

section

variable (directory : StateDirectory) (snapshot : RuntimePolicySnapshot)
  (versioned : Option RouteCacheEpochStore × TqCacheNamespaceApplyResult)

theorem registeredEpoch_afterVersioning (routeId : Text) :
    (afterVersioning state directory snapshot versioned).registeredEpoch routeId =
      versioned.1.bind (routeCacheEpochGet · routeId) := by
  unfold afterVersioning
  split <;> rfl

theorem active_afterVersioning (hserv : state.policyStore = some (.serving current)) :
    (afterVersioning state directory snapshot versioned).policyStore.bind (·.active) =
      some (if versioned.2.ok then snapshot else current) := by
  unfold afterVersioning
  cases versioned.2.ok with
  | false =>
    simp [hserv, serving]
  | true =>
    simp [serving]

end

theorem nextSnapshot_ne : nextSnapshot L current parsed ≠ current := by
  intro h
  have hgen : current.generation + 1 = current.generation := congrArg (·.generation) h
  simp at hgen

variable (L parsed) in
/-- The two plans have the same effect if nothing is bumped, or if both stop before the first bump. -/
theorem sameEffect_iff {store plan} (hplan : ReadablePlan plan)
    (hserv : state.policyStore = some (.serving current)) (directory : StateDirectory) :
    SameEffect (afterVersioning state directory (nextSnapshot L current parsed)
          (versionEpochsForApply (some store) plan))
        (afterVersioning state directory (nextSnapshot L current parsed)
          (versionEpochsForApply (some store) (plan.map (·.withoutFields)))) ↔
      (∀ change ∈ plan, change.bumps = false) ∨ StopsUnbumped store plan := by
  constructor
  · intro h
    have halike : VersionsAlike store plan := by
      refine ⟨fun routeId => ?_, ?_⟩
      · have hepoch := h.epochs routeId
        rwa [registeredEpoch_afterVersioning, registeredEpoch_afterVersioning] at hepoch
      · have hsnap := h.snapshot
        rw [active_afterVersioning _ _ _ hserv, active_afterVersioning _ _ _ hserv] at hsnap
        have hne : nextSnapshot L current parsed ≠ current := nextSnapshot_ne
        generalize (versionEpochsForApply (some store) plan).2.ok = first at hsnap ⊢
        generalize (versionEpochsForApply (some store) (plan.map _)).2.ok = second at hsnap ⊢
        cases first <;> cases second <;> simp_all [eq_comm]
    by_cases hbumps : ∃ change ∈ plan, change.bumps
    · exact .inr (stopsUnbumped_of_alike hplan halike hbumps)
    · refine .inl fun change hmem => ?_
      by_contra hbump
      exact hbumps ⟨change, hmem, by simpa using hbump⟩
  · rintro (hnone | hstops)
    · rw [versionEpochsForApply_withoutFields (some store) hnone]
      exact .refl _
    · obtain ⟨after, hfst, hsnd⟩ := stopsUnbumped_alike hplan hstops
      rw [afterVersioning, afterVersioning, if_pos hfst.2, if_pos hsnd.2, hfst.1, hsnd.1]
      exact .refl _

theorem executeImpl_of_not_passes (hserv : state.policyStore = some (.serving current))
    (h : ¬∃ candidate parsed,
      PassesChecks F L request state.policyStore (.serving current) current candidate parsed) :
    (executeImpl L config call (request.reporting options) F state).1 = state := by
  unfold executeImpl
  split
  · rfl
  rename_i p hprep
  obtain ⟨store, current', candidate, parsed, _, hpass, -⟩ := prepareApply_ok hprep
  obtain rfl : serving current = store :=
    some.inj (hserv.symm.trans hpass.configured)
  obtain rfl : current = current' := some.inj hpass.active
  exact absurd ⟨candidate, parsed, hpass.reporting request.planOptions⟩ h

theorem ReadablePlan.of_readable {input : ActivationInput} (h : input.Readable)
    (options : TqApplyPlanOptions) :
    ReadablePlan (buildTaperqueryApplyPlan L.toRouteLanguage options input.before input.after) where
  ids change hmem := by
    obtain ⟨route, hroute, hid⟩ := plan_routeId hmem
    exact hid ▸ h.ids route hroute
  kinds := plan_kinds
  size := Nat.lt_of_le_of_lt length_plan_le h.sizes

/-- The reporting options have no effect on what an apply does exactly if it does not come to the epochs,
    if no route is bumped, or if the versioning fails before the first bump in either way. -/
theorem reporting_options_same_effect_iff (F : TqFrontEnd α) (L : IrLanguage)
    (config : LocalPolicyPersistenceConfig) (call : ApplyCall) (request : TqApplyRequest)
    (state : ApplyServiceState) (current : RuntimePolicySnapshot)
    (hserved : state.policyStore = some (.serving current))
    (hreadable : ∀ candidate parsed,
      PassesChecks F L request state.policyStore (.serving current) current candidate parsed →
        ({ store := .serving current, before := current.policyIr, after := candidate } :
          ActivationInput).Readable) :
    (∀ options options', SameEffect
        (TqApplyService.executeImpl L config call (request.reporting options) F state).1
        (TqApplyService.executeImpl L config call (request.reporting options') F state).1) ↔
      ∀ candidate parsed store,
        PassesChecks F L request state.policyStore (.serving current) current candidate parsed →
        (persistOutcome L config call request current candidate parsed state.directory).2 = .ok () →
        state.epochs = some store →
        (∀ change ∈ buildTaperqueryApplyPlan L.toRouteLanguage {} current.policyIr candidate,
            change.bumps = false) ∨
          StopsUnbumped store
            (buildTaperqueryApplyPlan L.toRouteLanguage {} current.policyIr candidate) := by
  constructor
  · intro h candidate parsed store hpass hpers hep
    have hsame := h ⟨false, true⟩ ⟨false, false⟩
    rw [executeImpl_of_passes _ hpass, executeImpl_of_passes _ hpass] at hsame
    cases hout : persistOutcome L config call request current candidate parsed state.directory with
    | mk directory =>
      rw [hout] at hpers hsame
      subst hpers
      rw [hep, syncRouteEpochs, syncRouteEpochs, plan_withoutFields] at hsame
      exact (sameEffect_iff L parsed (.of_readable (hreadable candidate parsed hpass) {}) hserved
        directory).mp hsame
  · intro h options options'
    by_cases hpass : ∃ candidate parsed,
        PassesChecks F L request state.policyStore (.serving current) current candidate parsed
    · obtain ⟨candidate, parsed, hpass⟩ := hpass
      rw [executeImpl_of_passes _ hpass, executeImpl_of_passes _ hpass]
      cases hout : persistOutcome L config call request current candidate parsed
          state.directory with
      | mk directory outcome =>
        cases outcome with
        | error => exact .refl _
        | ok =>
          dsimp only
          cases hep : state.epochs with
          | none => exact .refl _
          | some store =>
            have hboth := (sameEffect_iff L parsed
              (.of_readable (hreadable candidate parsed hpass) {}) hserved directory).mpr
              (h candidate parsed store hpass (by rw [hout]) hep)
            simp only [syncRouteEpochs]
            rw [versionEpochsForApply_reported, versionEpochsForApply_reported]
            cases options.includeFieldLevelChanges <;> cases options'.includeFieldLevelChanges
            · exact .refl _
            · exact hboth.symm
            · exact hboth
            · exact .refl _
    · rw [executeImpl_of_not_passes options hserved hpass,
        executeImpl_of_not_passes options' hserved hpass]
      exact .refl _

end Effect

/-! ## A filter that is not reported -/

/-- A cached route. -/
def shopRoute (mutation : TqMutationMode) (fieldFilter : TqFieldFilterPolicy) : TqRoutePolicy :=
  { routeId := lit "orders", matchPrefix := lit "/orders", mutation, allowedMethod := .get, fieldFilter
    cache :=
      { behavior := .store, ttlMs := 30000, enabled := true
        l1 := { enabled := true, capacityEntries := 1000 } } }

def shopPolicy (route : TqRoutePolicy) : PolicyIr :=
  { documentId := lit "shop", routes := [route] }

variable (document : PolicyIr)

/-- A source that is compiled to the document. -/
def sourceOf : TqFrontEnd Unit where
  parse _ := .ok ()
  compile _ := .ok document

/-- A reader of YAML that gives the document. -/
def readingAs : IrLanguage :=
  { sampleLanguage with loadYaml := fun _ => .ok document }

def shopSnapshot : RuntimePolicySnapshot where
  policyIdentity := sampleLanguage.computePolicyDocumentIdentity (shopPolicy (shopRoute .full {}))
  generation := 1
  policyIr := sampleLanguage.normalizePolicyIr (shopPolicy (shopRoute .full {}))

def shopState : ApplyServiceState where
  policyStore := some (.serving shopSnapshot)
  epochs := some [{ routeId := lit "orders" }]

def shopRequest : TqApplyRequest where
  mode := .apply
  source := lit "orders"
  expectedBaseIdentity := shopSnapshot.policyIdentity

def observedShop : PolicyIr := shopPolicy (shopRoute .disabled {})

def filteredShop : PolicyIr :=
  shopPolicy (shopRoute .full { mode := .allowlist, fields := [lit "id"] })

/-- What an apply of the document does to the shop, with the given options. -/
def applyToShop (options : TqApplyPlanOptions) : ApplyServiceState × TqApplyResult :=
  TqApplyService.executeImpl (readingAs document) {} {} (shopRequest.reporting options)
    (sourceOf document) shopState

theorem compile_sourceOf {document candidate : PolicyIr}
    {L : IrLanguage} {request : TqApplyRequest} {result : TqApplyResult}
    (hbase : document.expectedBaseSha = [])
    (h : compileCandidate (sourceOf document) L request result = .ok candidate) :
    candidate = L.normalizePolicyIr
      { document with expectedBaseSha := request.expectedBaseIdentity } := by
  simp only [compileCandidate, sourceOf, hbase, ne_eq, not_true_eq_false, false_and, if_false,
    orElse, if_true] at h
  exact (Except.ok.inj h).symm

/-- A route that is no longer rewritten is modified, but not bumped. -/
theorem observed_shop_same_effect :
    (applyToShop observedShop {}).2.status = .applied ∧
      SameEffect (applyToShop observedShop {}).1
        (applyToShop observedShop { includeFieldLevelChanges := false }).1 := by
  refine ⟨by decide +kernel, (reporting_options_same_effect_iff (sourceOf observedShop)
    (readingAs observedShop) {} {} shopRequest shopState shopSnapshot rfl ?_).mpr ?_ {} _⟩
  · intro candidate _ hpass
    rw [compile_sourceOf rfl hpass.compiled]
    exact ⟨by decide +kernel, by decide +kernel⟩
  · intro candidate _ _ hpass _ _
    rw [compile_sourceOf rfl hpass.compiled]
    exact .inl (by decide +kernel)

/-- Without the field changes the new filter is served, and the epoch stays. -/
theorem unreported_filter_keeps_epoch :
    (applyToShop filteredShop {}).2.status = .applied ∧
      (applyToShop filteredShop { includeFieldLevelChanges := false }).2.status = .applied ∧
      ¬SameEffect (applyToShop filteredShop {}).1
        (applyToShop filteredShop { includeFieldLevelChanges := false }).1 := by
  refine ⟨by decide +kernel, by decide +kernel, fun hsame => ?_⟩
  have hepoch := hsame.epochs (lit "orders")
  have hbumped : (applyToShop filteredShop {}).1.registeredEpoch (lit "orders") = some 2 := by
    decide +kernel
  have hkept : (applyToShop filteredShop
      { includeFieldLevelChanges := false }).1.registeredEpoch (lit "orders") = some 1 := by
    decide +kernel
  rw [hbumped, hkept] at hepoch
  cases hepoch

end ByteTaper.TaperQuery
