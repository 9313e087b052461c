import ByteTaper.Cache.CacheKey
import ByteTaper.Operational.ActivationCoverage
import ByteTaper.Runtime.RoutePolicyConversion
import ByteTaper.TaperQuery.ReportingOptions

/-! # What the cleanup of a namespace takes out of L1

A cleanup looks in the keys for the route, the epoch and the identity that the plan has for the route.
That identity is the one of the policy document, sixteen hexadecimal digits; the identity in the keys is
the one of the runtime form, which names its version. So a key is recognised only by a bar inside its
parts, and the entries of the old namespace stay. -/

namespace ByteTaper.Operational

open Cache Policy TaperQuery ByteTaper.Runtime Option CacheKeyInput

/-! ## Markers in keys -/

variable {text rest routeId : Text}

theorem strstr_split {needle : Text} (h : strstr needle text = some rest) :
    ∃ before behind, text = before ++ rest ∧ rest = needle ++ behind := by
  induction text with
  | nil =>
    simp only [strstr, ite_none_right_eq_some, List.isEmpty_iff, some.injEq] at h
    obtain ⟨rfl, rfl⟩ := h
    exact ⟨[], [], rfl, rfl⟩
  | cons c _ ih =>
    simp only [strstr] at h
    split at h
    next hpfx =>
      obtain rfl := some.inj h
      obtain ⟨behind, hbehind⟩ := List.isPrefixOf_iff_prefix.mp hpfx
      exact ⟨[], behind, rfl, hbehind.symm⟩
    next =>
      obtain ⟨before, behind, htext, hrest⟩ := ih h
      exact ⟨c :: before, behind, by rw [htext, List.cons_append], hrest⟩

theorem skipBars_split {bars : Nat} (h : skipBars (bars + 1) text = some rest) :
    ∃ before, text = before ++ '|' :: rest ∧ before.count '|' = bars := by
  induction text generalizing bars with
  | nil => simp [skipBars] at h
  | cons c _ ih =>
    simp only [skipBars] at h
    split at h
    next hbar =>
      subst hbar
      cases bars with
      | zero =>
        rw [skipBars] at h
        obtain rfl := some.inj h
        exact ⟨[], rfl, rfl⟩
      | succ =>
        obtain ⟨before, rfl, hcnt⟩ := ih h
        exact ⟨'|' :: before, rfl, by rw [List.count_cons_self, hcnt]⟩
    next hne =>
      obtain ⟨before, rfl, hcnt⟩ := ih h
      exact ⟨c :: before, rfl, by rw [List.count_cons_of_ne hne, hcnt]⟩

/-- The marker of a route with a short id is not cut off, so it has three bars. -/
theorem count_cleanupMarker (h : routeId.length < kEpochRouteIdSize) (epoch : UInt64) :
    3 ≤ (cleanupMarker routeId epoch).count '|' := by
  have hdigs : (Nat.toDigits 10 epoch.toNat).length ≤ 20 :=
    (Nat.length_toDigits_le_iff (by decide) (by decide)).mpr
      (Nat.lt_trans epoch.toNat_lt (by decide))
  have hbar : (lit "|").length = 1 ∧ (lit "|").count '|' = 1 := by simp [lit]
  have hepoch : (lit "|epoch:").length = 7 ∧ (lit "|epoch:").count '|' = 1 := by simp [lit]
  rw [cleanupMarker, List.take_of_length_le]
  · simp only [List.count_append, hbar, hepoch]
    omega
  · simp only [List.length_append, hbar, hepoch]
    have : kEpochRouteIdSize = 64 := rfl
    omega

/-- A key with the marker and the identity has the identity between two bars, behind at least six. -/
theorem identity_of_inRouteNamespace {request} {key : Text}
    {identity : Text} (hid : routeId.length < kEpochRouteIdSize)
    (hident : request.oldPolicyIdentity = some identity) (hne : identity ≠ [])
    (h : inRouteNamespace request routeId key) : identity ∈ (key.splitOn '|').drop 6 := by
  simp only [inRouteNamespace, hident, getD_some] at h
  cases hstr : strstr (cleanupMarker routeId request.oldEpoch) key with
  | none => simp [hstr] at h
  | some =>
    obtain ⟨before, behind, hkey, rfl⟩ := strstr_split hstr
    cases hskip : skipBars 3 behind with
    | none => simp [hstr, hskip] at h
    | some tail =>
      obtain ⟨mid, rfl, hcnt⟩ := skipBars_split hskip
      have htail : tail.takeWhile (· != '|') = identity := by
        have hsame : (fun c : Char => c != '|') = fun c => decide (c ≠ '|') :=
          funext fun c => by rw [bne, beq_eq_decide, decide_not]
        rw [hsame]
        simpa [hstr, hskip, hne] using h
      have hseg := Separated.splitOn_getElem?_behind '|'
        (before ++ cleanupMarker routeId request.oldEpoch ++ mid) tail
      have hwhole : before ++ cleanupMarker routeId request.oldEpoch ++ mid ++ '|' :: tail =
          key := by
        rw [hkey]
        simp
      rw [hwhole, htail, List.count_append, List.count_append, hcnt] at hseg
      have hbars := count_cleanupMarker hid request.oldEpoch
      refine List.mem_of_getElem? (i := before.count '|' +
        ((cleanupMarker routeId request.oldEpoch).count '|' - 3)) ?_
      rw [List.getElem?_drop, ← hseg]
      congr 1
      omega

/-! ## Keys without bars in their parts -/

section Keys

variable {input : CacheKeyInput}

theorem splitOn_keyText (hbars : ∀ part ∈ input.keyParts, '|' ∉ part) :
    ∃ verb, input.keyText.splitOn '|' = verb :: input.keyParts := by
  have hne : input.keyParts ≠ [] := by simp [keyParts]
  have hparts : ([ '|' ].intercalate input.keyParts).splitOn '|' = input.keyParts := by
    rw [Separated.splitOn_intercalate_of_ne_nil '|' hne]
    refine (List.flatMap_congr fun part hpart => ?_).trans (List.flatMap_singleton' _)
    exact List.splitOn_eq_singleton (hbars part hpart)
  have hget : lit "GET|" = lit "GET" ++ ['|'] := by simp [lit]
  have hverb : '|' ∉ (if input.variant then lit "var:" else []) ++ lit "GET" := by
    cases input.variant <;> simp [lit]
  refine ⟨(if input.variant then lit "var:" else []) ++ lit "GET", ?_⟩
  rw [keyText, hget, ← List.append_assoc, List.append_assoc _ ['|'],
    List.singleton_append, List.splitOn_append_cons_self, List.splitOn_eq_singleton hverb, hparts,
    List.singleton_append]

/-- The parts of a key from the policy on have colons. -/
theorem colon_mem_of_mem_drop (hready : input.routeCacheEpochReady)
    (hver : ':' ∈ input.policyVersion.getD []) {part : Text}
    (h : part ∈ input.keyParts.drop 5) : ':' ∈ part := by
  have hvary : ':' ∈ lit "vary:" := by simp [lit]
  have hscope : ':' ∈ lit "scope:" := by simp [lit]
  simp only [keyParts, hready, if_true, List.cons_append, List.nil_append,
    List.drop_succ_cons, List.drop_zero, List.mem_cons, List.mem_append] at h
  rcases h with rfl | h | h
  · exact hver
  · split at h
    · cases h
    · rw [List.mem_singleton.mp h]
      exact List.mem_append_left _ hvary
  · split at h
    · rw [List.mem_singleton.mp h]
      exact List.mem_append_left _ hscope
    · cases h

/-- A key of a version-named policy is not recognised by an identity without colon. -/
theorem inRouteNamespace_keyText (hready : input.routeCacheEpochReady)
    (hver : ':' ∈ input.policyVersion.getD []) (hbars : ∀ part ∈ input.keyParts, '|' ∉ part)
    {request} {identity : Text}
    (hid : routeId.length < kEpochRouteIdSize)
    (hident : request.oldPolicyIdentity = some identity) (hne : identity ≠ [])
    (hcolon : ':' ∉ identity) : inRouteNamespace request routeId input.keyText = false := by
  by_contra hmatch
  have hmem := identity_of_inRouteNamespace hid hident hne (by simpa using hmatch)
  obtain ⟨verb, hsplit⟩ := splitOn_keyText hbars
  rw [hsplit, List.drop_succ_cons] at hmem
  exact hcolon (colon_mem_of_mem_drop hready hver hmem)

end Keys

/-! ## The cleanups of a change -/

def cleanupRequest (route : TqRouteCacheCleanupPlan) : L1RouteNamespaceCleanupRequest where
  routeId := some route.routeId
  oldEpoch := route.oldEpoch
  oldPolicyIdentity := some route.beforeRouteIdentity

/-- One of the cleanups recognises the key. -/
def swept (routes : List TqRouteCacheCleanupPlan) (key : Text) : Bool :=
  routes.any fun route =>
    route.l1CleanupRequired && inRouteNamespace (cleanupRequest route) route.routeId key

/-- The entries in use whose keys are recognised are cleared, and the other slots are kept. -/
theorem performL1Cleanups_slots (l1 : L1Cache) (routes : List TqRouteCacheCleanupPlan) :
    ∃ after, (performL1Cleanups (some l1) routes).1 = some after ∧ ∀ s i, (after s).slots i =
        if ((l1 s).slots i).inUse && swept routes ((l1 s).slots i).entry.key then {}
        else (l1 s).slots i := by
  induction routes generalizing l1 with
  | nil => exact ⟨l1, rfl, fun s i => by simp [swept]⟩
  | cons route routes ih =>
    cases hreq : route.l1CleanupRequired with
    | false =>
      obtain ⟨after, hafter, hslots⟩ := ih l1
      refine ⟨after, by simpa [performL1Cleanups, hreq] using hafter, fun s i => ?_⟩
      simpa [swept, hreq] using hslots s i
    | true =>
      obtain ⟨after, hafter, hslots⟩ :=
        ih (l1CleanupRouteNamespace l1 (cleanupRequest route)).1
      refine ⟨after, by simpa [performL1Cleanups, hreq, cleanupRequest] using hafter, fun s i => ?_⟩
      have hfst : ((l1CleanupRouteNamespace l1 (cleanupRequest route)).1 s).slots i =
          if ((l1 s).slots i).inUse &&
            inRouteNamespace (cleanupRequest route) route.routeId ((l1 s).slots i).entry.key
          then {} else (l1 s).slots i := rfl
      rw [hslots s i, hfst]
      cases hmatch : ((l1 s).slots i).inUse &&
        inRouteNamespace (cleanupRequest route) route.routeId ((l1 s).slots i).entry.key with
      | true =>
        obtain ⟨huse, hmarked⟩ := Bool.and_eq_true_iff.mp hmatch
        have hempty : ({} : L1Slot).inUse = false := rfl
        have hswept : swept (route :: routes) ((l1 s).slots i).entry.key := by
          simp [swept, hreq, hmarked]
        simp [huse, hswept, hempty]
      | false =>
        simp only [swept, List.any_cons, hreq, Bool.true_and, Bool.false_eq_true, if_false]
        rw [Bool.and_or_distrib_left, hmatch, Bool.false_or]

theorem performL1Cleanups_none (routes : List TqRouteCacheCleanupPlan) :
    (performL1Cleanups none routes).1 = none := by
  induction routes with
  | nil => rfl
  | cons _ _ ih => simpa [performL1Cleanups] using ih

/-- Which L2 cleanups were queued does not matter to L1. -/
theorem performL1Cleanups_enqueued (l1 : Option L1Cache) (queue : Option (List RouteCacheCleanupJob))
    (routes : List TqRouteCacheCleanupPlan) :
    (performL1Cleanups l1 (enqueueRouteCleanups queue routes).2).1 = (performL1Cleanups l1 routes).1 := by
  cases queue with
  | none => rfl
  | some =>
    simp only [enqueueRouteCleanups]
    induction routes generalizing l1 with
    | nil => rfl
    | cons route _ ih =>
      cases hreq : route.l1CleanupRequired with
      | false => simpa [performL1Cleanups, hreq] using ih l1
      | true =>
        cases l1 with
        | none => simpa [performL1Cleanups] using ih none
        | some => simpa [performL1Cleanups, hreq] using ih _

/-! ## Changes of the served policy -/

section Changes

variable (α : Type) (L : IrLanguage)

/-- A successful activation or apply, with the changes of the routes that it plans. -/
inductive PolicyChanged (state : ActivationState) :
    ActivationState → RouteChanges → Prop where
  | activated {config : PolicyActivationBarrierConfig} {request : PolicyActivationRequest}
      {after : ActivationState} {result : PolicyActivationResult} {input : ActivationInput}
      (hactivate : activate L config request state = some (after, result))
      (hok : result.ok = true)
      (hinput : activationInput L config request state = some (.ok input)) :
      PolicyChanged state after (input.plan L)
  | applied {F : TqFrontEnd α} {config : LocalPolicyPersistenceConfig} {call : ApplyCall}
      {request : TqApplyRequest} {directory : StateDirectory} {after : ApplyServiceState}
      {result : TqApplyResult} {store : RuntimePolicyStore} {current : RuntimePolicySnapshot}
      {candidate parsed : PolicyIr}
      (happly : TqApplyService.executeImpl L config call request F { state with directory } =
        (after, result))
      (happlied : result.status = .applied)
      (hpasses : PassesChecks F L request state.policyStore store current candidate parsed) :
      PolicyChanged state after.toActivationState
        (buildTaperqueryApplyPlan L.toRouteLanguage request.planOptions current.policyIr candidate)

variable {α} {L} {state after : ActivationState} {plan : RouteChanges}

/-- Behind the versioning only the snapshot can fail. -/
theorem activateInput_ok {config request store}
    {input : ActivationInput} (hsync : (syncRouteEpochs state.epochs (input.plan L)).2.ok)
    (hpub : (publishSnapshot L config request input).toOption = some store) :
    (activateInput L config request state input).2.ok ∧
      (activateInput L config request state input).1.policyStore = some store := by
  cases hstore : publishSnapshot L config request input with
  | error =>
    rw [hstore] at hpub
    cases hpub
  | ok =>
    rw [hstore] at hpub
    cases hpub
    simp [activateInput, hsync, hstore]

/-- What the caches hold behind a change of the policy. -/
theorem PolicyChanged.l1 (h : PolicyChanged α L state after plan) :
    after.l1 = (performL1Cleanups state.l1 (syncRouteEpochs state.epochs plan).2.routes).1 := by
  cases h with
  | @activated config request _ result input hactv hok hin =>
    rcases activate_cases hactv with ⟨hnone, -, -⟩ | ⟨input', hin', hrun⟩
    · exact absurd hin (hnone input)
    obtain rfl := Except.ok.inj (some.inj (hin.symm.trans hin'))
    unfold activateInput at hrun
    dsimp only at hrun
    split at hrun
    · obtain ⟨-, rfl⟩ := Prod.mk.inj hrun
      cases hok
    · split at hrun
      · obtain ⟨-, rfl⟩ := Prod.mk.inj hrun
        cases hok
      · obtain ⟨rfl, -⟩ := Prod.mk.inj hrun
        exact performL1Cleanups_enqueued _ _ _
  | applied happly happ hpass =>
    obtain ⟨result, hprep⟩ := hpass.prepareApply
    unfold TqApplyService.executeImpl at happly
    rw [hprep] at happly
    dsimp only at happly
    unfold commitApply at happly
    split at happly
    · obtain ⟨-, rfl⟩ := Prod.mk.inj happly
      cases happ
    · dsimp only at happly
      split at happly
      · obtain ⟨-, rfl⟩ := Prod.mk.inj happly
        cases happ
      · split at happly
        · obtain ⟨-, rfl⟩ := Prod.mk.inj happly
          unfold rejectSwap at happ
          split at happ <;> cases happ
        · obtain ⟨rfl, -⟩ := Prod.mk.inj happly
          rfl

end Changes

/-! ## Namespaces -/

/-- The identity in the keys is the one of the runtime form. -/
theorem exists_policyIdentity (route : TqRoutePolicy) :
    ∃ runtime, (convertTqRoutePolicyToRuntime route).policyIdentity =
      computeRoutePolicyIdentityV2 runtime :=
  ⟨_, policyIdentity_copyRoutePolicyIdentityV2ToLegacySlot _⟩

/-- A key that is built for a route in an epoch, raw or variant. -/
def NamespaceKey (route : TqRoutePolicy) (epoch : UInt64) (key : Text) : Prop :=
  ∃ input : CacheKeyInput,
    input.routeId = (convertTqRoutePolicyToRuntime route).routeId ∧
      input.routeCacheEpochReady = true ∧ input.routeCacheEpoch = epoch ∧
      input.policyVersion = some (convertTqRoutePolicyToRuntime route).policyIdentity ∧
      buildCacheKey input kCacheKeyMaxLen = some key

/-- A served route that is no longer served, or with other settings for its cache, and its old epoch. -/
structure LeftNamespace (state after : ActivationState) (route : TqRoutePolicy) (epoch : UInt64) :
    Prop where
  served : route ∈ state.servedPolicy.routes
  changed : (∀ new ∈ after.servedPolicy.routes, new.routeId ≠ route.routeId) ∨
    ∃ new ∈ after.servedPolicy.routes, new.routeId = route.routeId ∧ CacheSettingsDiffer route new
  epoch : state.registeredEpoch route.routeId = some epoch

/-- No entry of a namespace that was left remains. -/
def NamespacesEmptied (state after : ActivationState) : Prop :=
  ∀ route epoch, LeftNamespace state after route epoch →
    ∀ l1, after.l1 = some l1 → l1.All fun entry => ¬NamespaceKey route epoch entry.key

section Namespaces

variable {L : IrLanguage} {state : ActivationState}
  {plan : RouteChanges} {route : TqRouteCacheCleanupPlan}

/-- Every cleanup is that of a change, with the identity the plan has for the old route. -/
theorem mem_routes_syncRouteEpochs {epochs}
    (h : route ∈ (syncRouteEpochs epochs plan).2.routes) :
    ∃ change ∈ plan, route.routeId = change.routeId ∧
      route.beforeRouteIdentity = change.beforeIdentity ∧
      route.l1CleanupRequired = (change.kind = .removed || change.bumps) := by
  cases epochs with
  | none => cases h
  | some store =>
    obtain ⟨made, rest, after, hplan, -, hmade, -⟩ := versionEpochsForApply_cases store plan
    replace h : route ∈ (versionEpochsForApply (some store) plan).2.routes := h
    generalize (versionEpochsForApply (some store) plan).2.routes = routes at h hmade
    subst hplan
    simp only [List.mem_append, or_and_right, exists_or]
    refine .inl ?_
    induction hmade with
    | nil => cases h
    | @cons store mid after change changes routes newEpoch head tail ih =>
      rcases List.mem_append.mp h with h | h
      · unfold plansOf at h
        split at h
        · cases h
        · obtain rfl := List.mem_singleton.mp h
          exact ⟨change, by simp, rfl, rfl, rfl⟩
      · obtain ⟨other, hother, hspec⟩ := ih h
        exact ⟨other, by simp [hother], hspec⟩

/-- The plan has an identity for the old route of a removal or a modification. -/
theorem beforeIdentity_of_cleaned {options before after change}
    (h : change ∈ buildTaperqueryApplyPlan L.toRouteLanguage options before after)
    (hcleaned : (change.kind = .removed || change.bumps)) :
    ∃ route, change.beforeIdentity = computeRoutePolicyIdentity L.toRouteLanguage route := by
  rcases mem_plan_iff.mp h with ⟨route, -, hplan⟩ | ⟨route, -, hplan⟩
  · unfold planRoute at hplan
    dsimp only at hplan
    split at hplan
    · cases hplan
      cases hcleaned
    next old _ =>
      split at hplan
      · cases hplan
        exact ⟨old, rfl⟩
      · split at hplan
        · cases hplan
          exact ⟨old, rfl⟩
        · cases hplan
  · unfold planRemoval at hplan
    split at hplan
    · cases hplan
    · cases hplan
      exact ⟨route, rfl⟩

end Namespaces

section Main

variable {α : Type} {state after : ActivationState} {plan : RouteChanges}

/-- No cleanup recognises a key without bars in its parts. -/
theorem PolicyChanged.not_swept (siphash : Text → UInt64) (sha256Hex : Text → Text)
    (printRoute : TqRoutePolicy → Text) (loadYaml : Text → Except Text PolicyIr)
    (h : PolicyChanged α (policyLanguage siphash sha256Hex printRoute loadYaml) state after plan)
    (hids : ∀ change ∈ plan, change.routeId.length < kEpochRouteIdSize) (route : TqRoutePolicy)
    (input : CacheKeyInput) (hready : input.routeCacheEpochReady)
    (hver : input.policyVersion = some (convertTqRoutePolicyToRuntime route).policyIdentity)
    (hbars : ∀ part ∈ input.keyParts, '|' ∉ part) :
    swept (syncRouteEpochs state.epochs plan).2.routes input.keyText = false := by
  obtain ⟨options, before, new, hplan⟩ : ∃ options before new, plan = buildTaperqueryApplyPlan
      (policyLanguage siphash sha256Hex printRoute loadYaml).toRouteLanguage options before new := by
    cases h with
    | @activated _ _ _ _ input _ _ _ => exact ⟨{}, input.before, input.after, rfl⟩
    | applied => exact ⟨_, _, _, rfl⟩
  have hcolon : ':' ∈ input.policyVersion.getD [] := by
    obtain ⟨_, hident⟩ := exists_policyIdentity route
    rw [hver, getD_some, hident]
    exact colon_mem_computeRoutePolicyIdentityV2 _
  refine List.any_eq_false.mpr fun cleanup hcleanup => ?_
  rw [Bool.not_eq_true, Bool.and_eq_false_imp]
  intro hreq
  obtain ⟨change, hchg, hid, hident, hkind⟩ := mem_routes_syncRouteEpochs hcleanup
  obtain ⟨old, hold⟩ := beforeIdentity_of_cleaned (hplan ▸ hchg) (hkind ▸ hreq)
  have hhex : cleanup.beforeRouteIdentity =
      formatHex (siphash (feedRoute (normalizeRoutePolicyIr old))) := hident.trans hold
  refine inRouteNamespace_keyText hready hcolon hbars (hid ▸ hids change hchg) rfl ?_ ?_
  · rw [hhex]
    exact List.ne_nil_of_length_pos (by simp)
  · rw [hhex]
    exact notMem_formatHex (by decide) _

theorem PolicyChanged.emptied_iff {L : IrLanguage}
    (h : PolicyChanged α L state after plan) : NamespacesEmptied state after ↔
      ∀ route epoch, LeftNamespace state after route epoch →
        ∀ l1, state.l1 = some l1 → l1.All fun entry => NamespaceKey route epoch entry.key →
          swept (syncRouteEpochs state.epochs plan).2.routes entry.key = true := by
  unfold NamespacesEmptied
  rw [h.l1]
  refine forall_congr' fun route => forall_congr' fun epoch => imp_congr_right fun _ => ?_
  cases hl1 : state.l1 with
  | none =>
    rw [performL1Cleanups_none]
    exact iff_of_true (fun _ h => by cases h) fun _ h => by cases h
  | some l1 =>
    obtain ⟨cleaned, hcleaned, hslots⟩ :=
      performL1Cleanups_slots l1 (syncRouteEpochs state.epochs plan).2.routes
    rw [hcleaned]
    constructor
    · intro hempty _ hsome s i huse hkey
      obtain rfl := some.inj hsome
      by_contra hkept
      have hslot : (cleaned s).slots i = (l1 s).slots i := by rw [hslots s i]; simp [hkept]
      exact hempty cleaned rfl s i (hslot ▸ huse) (hslot ▸ hkey)
    · intro hswept _ hsome s i huse hkey
      obtain rfl := some.inj hsome
      rw [hslots s i] at huse hkey
      split at huse
      · cases huse
      next hkept =>
        rw [if_neg hkept] at hkey
        exact hkept (by simp [huse, hswept l1 rfl s i huse hkey])

/-- The namespaces that a change leaves are emptied exactly if every entry of them was one that a cleanup
    recognises; and no cleanup recognises an entry without bars in the parts of its key. -/
theorem cleanup_empties_namespaces_iff (siphash : Text → UInt64) (sha256Hex : Text → Text)
    (printRoute : TqRoutePolicy → Text) (loadYaml : Text → Except Text PolicyIr)
    (state after : ActivationState) (plan : RouteChanges)
    (hchanged : PolicyChanged α (policyLanguage siphash sha256Hex printRoute loadYaml) state after
      plan) :
    (NamespacesEmptied state after ↔
      ∀ route epoch, LeftNamespace state after route epoch →
        ∀ l1, state.l1 = some l1 → l1.All fun entry => NamespaceKey route epoch entry.key →
          swept (syncRouteEpochs state.epochs plan).2.routes entry.key = true) ∧
    ((∀ change ∈ plan, change.routeId.length < kEpochRouteIdSize) →
      ∀ (route : TqRoutePolicy) (input : CacheKeyInput), input.routeCacheEpochReady = true →
        input.policyVersion = some (convertTqRoutePolicyToRuntime route).policyIdentity →
        (∀ part ∈ input.keyParts, '|' ∉ part) →
        swept (syncRouteEpochs state.epochs plan).2.routes input.keyText = false) :=
  ⟨hchanged.emptied_iff, fun hids route input hrdy hver hbars =>
    hchanged.not_swept siphash sha256Hex printRoute loadYaml hids route input hrdy hver hbars⟩

end Main

/-! ## An entry that stays -/

/-- A cache with one entry. -/
def l1With (key : Text) : L1Cache :=
  fun s => { slots := fun i => if s = 0 ∧ i = 0 then { entry := { key }, generation := 1 } else {} }

/-- The shop with this entry, before both of its routes are filtered. -/
def cachingState (key : Text) : ActivationState :=
  { servingState [lit "orders", lit "items"] with l1 := some (l1With key) }

def filterPlan : RouteChanges :=
  buildTaperqueryApplyPlan sampleLanguage.toRouteLanguage {} servedPolicy filteredPolicy

/-- Both routes are filtered, so that the namespace of the orders is left. -/
theorem filtered_changed (key : Text) :
    ∃ after, PolicyChanged Unit sampleLanguage (cachingState key) after filterPlan ∧
      LeftNamespace (cachingState key) after (ordersRoute .none) 1 := by
  let input : ActivationInput :=
    { store := { active := some servedSnapshot, generation := 1 }
      before := servedPolicy, after := filteredPolicy }
  have hin : activationInput sampleLanguage {} (pullOf 2 filteredPolicy) (cachingState key) =
      some (.ok input) :=
    activationInput_pullOf 2 filteredPolicy [lit "orders", lit "items"]
  have hsync : (syncRouteEpochs (cachingState key).epochs (input.plan sampleLanguage)).2.ok = true :=
    (by decide +kernel : (syncRouteEpochs (servingState [lit "orders", lit "items"]).epochs
      filterPlan).2.ok = true)
  have hpub : (publishSnapshot sampleLanguage {} (pullOf 2 filteredPolicy) input).toOption.any
      (fun store => store.active.any fun snapshot =>
        snapshot.policyIr.routes = filteredPolicy.routes) := by
    decide +kernel
  obtain ⟨store, hstore, hsnap⟩ := (any_eq_true _ _).mp hpub
  obtain ⟨snapshot, hactive, hroutes⟩ := (any_eq_true _ _).mp hsnap
  obtain ⟨hok, hafter⟩ := activateInput_ok hsync hstore
  have hserved : (activateInput sampleLanguage {} (pullOf 2 filteredPolicy) (cachingState key)
      input).1.servedPolicy.routes = filteredPolicy.routes := by
    rw [ActivationState.servedPolicy, hafter]
    simpa [hactive] using hroutes
  have hactivate : activate sampleLanguage {} (pullOf 2 filteredPolicy) (cachingState key) =
      some (activateInput sampleLanguage {} (pullOf 2 filteredPolicy) (cachingState key) input) := by
    rw [activate, hin]
    rfl
  have hchanged : ∃ new ∈ filteredPolicy.routes, new.routeId = (ordersRoute .none).routeId ∧
      CacheSettingsDiffer (ordersRoute .none) new := by decide +kernel
  have hepoch : (servingState [lit "orders", lit "items"]).registeredEpoch
      (ordersRoute .none).routeId = some 1 := by decide +kernel
  exact ⟨_, .activated hactivate hok hin, .head _, .inr (hserved ▸ hchanged), hepoch⟩

/-- The key of the orders in their first epoch. -/
def ordersInput (query : Text) : CacheKeyInput where
  routeId := some (lit "orders")
  path := some (lit "/orders")
  query := some query
  routeCacheEpoch := 1
  routeCacheEpochReady := true
  policyVersion := some (convertTqRoutePolicyToRuntime (ordersRoute .none)).policyIdentity

theorem ordersInput_bars : ∀ part ∈ (ordersInput []).keyParts, '|' ∉ part := by
  have htexts : ∀ part ∈ [lit "orders", (ordersInput []).epochPart, lit "/orders", [], []],
      '|' ∉ part := by decide +kernel
  intro part hpart
  have hmem : part ∈ [lit "orders", (ordersInput []).epochPart, lit "/orders", [], []] ++
      [(convertTqRoutePolicyToRuntime (ordersRoute .none)).policyIdentity] := hpart
  rcases List.mem_append.mp hmem with hmem | hmem
  · exact htexts part hmem
  · obtain ⟨_, hident⟩ := exists_policyIdentity (ordersRoute .none)
    rw [List.mem_singleton.mp hmem, hident]
    exact bar_notMem_computeRoutePolicyIdentityV2 _

theorem namespaceKey_ordersInput {query : Text} (hquery : query.length < 100) :
    NamespaceKey (ordersRoute .none) 1 (ordersInput query).keyText := by
  have hid : (ordersInput []).routeId =
      (convertTqRoutePolicyToRuntime (ordersRoute .none)).routeId := by decide +kernel
  refine ⟨ordersInput query, hid, rfl, rfl, rfl,
    buildCacheKey_eq_some_iff.mpr ⟨?_, rfl, ?_⟩⟩
  · exact ⟨rfl, rfl, rfl, by simp [ordersInput], fun hpriv => by cases hpriv⟩
  · have hlens : (lit "GET|").length = 4 ∧ (lit "orders").length = 6 ∧
        (ordersInput []).epochPart.length = 7 ∧ (lit "/orders").length = 7 ∧
        (ordersInput []).fieldsPart.length = 0 := by decide +kernel
    obtain ⟨_, hident⟩ := exists_policyIdentity (ordersRoute .none)
    have hlen := congrArg List.length hident
    rw [length_computeRoutePolicyIdentityV2] at hlen
    have hepoch : (ordersInput query).epochPart = (ordersInput []).epochPart := rfl
    have hfields : (ordersInput query).fieldsPart = (ordersInput []).fieldsPart := rfl
    rw [keyText_eq, headText, hepoch, hfields]
    simp only [ordersInput, kCacheKeyMaxLen] at hlens ⊢
    simp [hlens, hlen]
    omega

/-- A query with the old identity behind two bars, so that the cleanup takes the key for one of its own. -/
def barredKey : Text :=
  (ordersInput (lit "a||" ++
    computeRoutePolicyIdentity sampleLanguage.toRouteLanguage (ordersRoute .none))).keyText

theorem barred_entry_emptied :
    ∃ after, PolicyChanged Unit sampleLanguage (cachingState barredKey) after filterPlan ∧
      LeftNamespace (cachingState barredKey) after (ordersRoute .none) 1 ∧
      NamespaceKey (ordersRoute .none) 1 barredKey ∧
      NamespacesEmptied (cachingState barredKey) after := by
  obtain ⟨after, hchd, hleft⟩ := filtered_changed barredKey
  refine ⟨after, hchd, hleft, namespaceKey_ordersInput (by decide +kernel),
    (cleanup_empties_namespaces_iff sampleHash id (fun _ => []) (fun _ => .error (lit "no YAML")) _
      after filterPlan hchd).1.mpr ?_⟩
  intro _ _ _ l1 hl1 s i huse _
  obtain rfl := some.inj hl1
  have hswept : swept (syncRouteEpochs (servingState [lit "orders", lit "items"]).epochs
      filterPlan).2.routes barredKey = true := by decide +kernel
  by_cases hslot : s = 0 ∧ i = 0
  · simp only [l1With, hslot, and_self, if_true]
    exact hswept
  · simp only [l1With, hslot, if_false] at huse
    cases huse

/-- The entry of the orders stays when they are filtered. -/
theorem filtered_orders_stay :
    ∃ after, PolicyChanged Unit sampleLanguage (cachingState (ordersInput []).keyText) after
        filterPlan ∧
      ¬NamespacesEmptied (cachingState (ordersInput []).keyText) after := by
  obtain ⟨after, hchd, hleft⟩ := filtered_changed (ordersInput []).keyText
  refine ⟨after, hchd, fun hempty => ?_⟩
  have hkept := hchd.not_swept sampleHash id (fun _ => []) (fun _ => .error (lit "no YAML"))
    (by decide +kernel) (ordersRoute .none) (ordersInput []) rfl rfl ordersInput_bars
  have hswept := hchd.emptied_iff.mp hempty _ _ hleft _ rfl 0 0 rfl
    (namespaceKey_ordersInput (by decide))
  cases hkept.symm.trans hswept

end ByteTaper.Operational
