import ByteTaper.Cache.SanitizedQuery
import ByteTaper.ExtProc.SelectionIsolation

/-! # Targets that are cut off

The path and the query of a target are cut off to their buffers. A key with a whole buffer in it does
not fit its own, so a cut-off path gets no key, nor does a cut-off query if it stands in the key as it
is. On a route with field variants the key has the sanitized query, and a long `fields` parameter takes
the room in the buffer that the parameters behind it would need. -/

namespace ByteTaper.ExtProc

open Cache FieldSelection Policy Stages ByteTaper.Runtime List

variable {matchRoute : MatchRoute}

/-! ## Targets -/

def fullPath (target : Text) : Text := target.takeWhile (· != '?')

def fullQuery (target : Text) : Text := (target.dropWhile (· != '?')).drop 1

/-- The targets ask for the same, up to the selection of fields. -/
def SameTarget (target target' : Text) : Prop :=
  fullPath target = fullPath target' ∧
    keptParams (fullQuery target) = keptParams (fullQuery target')

/-- The buffers hold the same of both targets. -/
def SeenAs (target seen : Text) : Prop :=
  extractRawPathAndQuery target {} = extractRawPathAndQuery seen {}

/-- The context of a request, with the keys that are ready. -/
def keyedContext (matchRoute : MatchRoute) (epochs : Option RouteCacheEpochStore)
    (request : CacheRequest) : CacheContext :=
  (cacheKeyPrepareStage epochs request.scope
    (requestContext (onRequestHeaders matchRoute (some request.target) {}) request)).1

/-- The queries fit their buffers, with a byte to spare, and begin alike. -/
def QueriesFit (target target' : Text) : Prop :=
  (fullQuery target).length < kRawQueryBufferSize - 1 ∧
    (fullQuery target').length < kRawQueryBufferSize - 1 ∧
    LeadingAlike (fullQuery target) (fullQuery target')

/-! ## What the buffers hold -/

theorem onRequestHeaders_target (matchRoute : MatchRoute) (target : Text) :
    (onRequestHeaders matchRoute (some target) {}).context.rawPath =
        boundedCopy kRawPathBufferSize (fullPath target) ∧
      (onRequestHeaders matchRoute (some target) {}).context.rawQuery =
        boundedCopy kRawQueryBufferSize (fullQuery target) := by
  unfold onRequestHeaders
  dsimp only
  split
  · exact ⟨rfl, rfl⟩
  next policy _ =>
    obtain ⟨_, _, heq⟩ := prepareEffectiveFieldSelection_eq policy _
    rw [heq]
    exact ⟨rfl, rfl⟩

variable {target seen : Text}

theorem SeenAs.path (h : SeenAs target seen) : boundedCopy kRawPathBufferSize (fullPath target) =
      boundedCopy kRawPathBufferSize (fullPath seen) :=
  congrArg ApgTransformContext.rawPath h

theorem SeenAs.query (h : SeenAs target seen) : boundedCopy kRawQueryBufferSize (fullQuery target) =
      boundedCopy kRawQueryBufferSize (fullQuery seen) :=
  congrArg ApgTransformContext.rawQuery h

variable {capacity : Nat} {text key : Text} {c : Char} {policy : RoutePolicy}

/-- A buffer that is not full holds the whole text. -/
theorem eq_of_boundedCopy (h : boundedCopy capacity text = boundedCopy capacity seen)
    (hfits : (boundedCopy capacity seen).length < capacity - 1) : text = seen := by
  have hshort : ∀ {t : Text}, (boundedCopy capacity t).length < capacity - 1 →
      boundedCopy capacity t = t := by
    intro t ht
    unfold boundedCopy at ht ⊢
    rw [length_take] at ht
    exact take_of_length_le (by omega)
  rw [← hshort hfits, ← h, hshort (h ▸ hfits)]

theorem not_mem_boundedCopy (h : c ∉ text) :
    c ∉ boundedCopy capacity text := fun hmem => h (mem_of_mem_take hmem)

theorem not_mem_fullPath (h : c ∉ target) : c ∉ fullPath target :=
  fun hmem => h ((takeWhile_sublist _).subset hmem)

theorem not_mem_fullQuery (h : c ∉ target) : c ∉ fullQuery target :=
  fun hmem => h ((dropWhile_sublist _).subset (mem_of_mem_drop hmem))

/-! ## What one key says about two requests -/

/-- The path and the query stand in the key. -/
theorem length_lt_keyText (input : CacheKeyInput) :
    (input.path.getD []).length + (input.query.getD []).length + 1 < input.keyText.length := by
  rw [keyText_eq]
  simp only [CacheKeyInput.headText, length_append, length_singleton]
  have hget : (lit "GET|").length = 4 := by simp [lit]
  omega

/-- One key comes from one path and one query. -/
theorem keyQuery_of_key {scope scope' : CacheScope} {epoch epoch' : UInt64}
    {context context' : CacheContext} (h : KeysFor policy scope epoch context)
    (h' : KeysFor policy scope' epoch' context') (hkey : context.HasKey key)
    (hkey' : context'.HasKey key) (hpath : '|' ∉ context.rawPath ∧ '|' ∉ context'.rawPath)
    (hquery : '|' ∉ context.rawQuery ∧ '|' ∉ context'.rawQuery) :
    context.rawPath = context'.rawPath ∧ keyQuery policy context = keyQuery policy context' ∧
      context.rawPath.length + (keyQuery policy context).length + 2 < kCacheKeyMaxLen := by
  have hclean : ∀ {context : CacheContext}, '|' ∉ context.rawQuery →
      '|' ∉ keyQuery policy context := by
    intro context hbars
    unfold keyQuery
    split
    · exact bar_not_mem_sanitizedQuery hbars
    · exact hbars
  obtain ⟨hlen, fields, variant, htext⟩ := h.keyText_input hkey
  obtain ⟨-, fields', variant', htext'⟩ := h'.keyText_input hkey'
  obtain ⟨-, hpaths, hqs, -⟩ := keyText_parts (htext.symm.trans htext') rfl ⟨rfl, rfl⟩ hpath
    ⟨hclean hquery.1, hclean hquery.2⟩
  refine ⟨hpaths, hqs, ?_⟩
  have hroom := length_lt_keyText { keyInput policy scope epoch context with
    query := some (keyQuery policy context), selectedFields := fields, variant }
  rw [← htext] at hroom
  exact Nat.lt_of_le_of_lt hroom hlen

/-! ## Two targets with one key -/

/-- What stands behind a query goes on with it. -/
theorem fullQuery_append (h : fullQuery target ≠ []) (more : Text) :
    fullPath (target ++ more) = fullPath target ∧
      fullQuery (target ++ more) = fullQuery target ++ more := by
  induction target with
  | nil => exact absurd rfl h
  | cons c _ ih =>
    by_cases hc : c = '?'
    · simp [fullPath, fullQuery, hc]
    · have hne : (c != '?') := by simpa using hc
      simp only [fullPath, fullQuery, cons_append, takeWhile_cons,
        dropWhile_cons, hne, if_true] at h ih ⊢
      exact ⟨by rw [(ih h).1], (ih h).2⟩

theorem keptParams_append (query : Text) :
    keptParams (query ++ lit "&x=1") = keptParams query ++ [lit "x=1"] := by
  have hlit : lit "&x=1" = '&' :: lit "x=1" := by simp [lit]
  have hlast : keptParams (lit "x=1") = [lit "x=1"] := by decide +kernel
  rw [hlit, keptParams_eq, splitOn_append_cons_self, filter_append, ← keptParams_eq,
    ← keptParams_eq, hlast]

/-- A query that fills its buffer can go on without being seen. -/
theorem seenAs_append (h : kRawQueryBufferSize - 1 ≤ (fullQuery target).length) :
    SeenAs (target ++ lit "&x=1") target ∧
      keptParams (fullQuery (target ++ lit "&x=1")) ≠ keptParams (fullQuery target) := by
  have hne : fullQuery target ≠ [] := by
    intro hnil
    rw [hnil] at h
    exact absurd h (by decide)
  obtain ⟨hpath, hquery⟩ := fullQuery_append hne (lit "&x=1")
  constructor
  · show ApgTransformContext.mk (boundedCopy _ (fullPath _)) (boundedCopy _ (fullQuery _)) _ _ =
      ApgTransformContext.mk (boundedCopy _ (fullPath _)) (boundedCopy _ (fullQuery _)) _ _
    rw [hpath, hquery]
    unfold boundedCopy
    rw [take_append_of_le_length h]
  · rw [hquery, keptParams_append]
    simp

/-- The sanitized query of a context, empty or not. -/
theorem sanitizedQuery_eq (context : CacheContext) :
    sanitizedQuery context = sanitizeQueryStripFieldsParam context.rawQuery kRawQueryBufferSize := by
  unfold sanitizedQuery
  split
  next hempty =>
    rw [isEmpty_iff.mp hempty]
    simp [sanitizeQueryStripFieldsParam, keptParams]
  next => rfl

/-- The buffers of a request that gets a key. -/
theorem keyedContext_buffers {epochs} {request : CacheRequest}
    (hpol : (onRequestHeaders matchRoute (some request.target) {}).matchedPolicy = some policy)
    (hbars : '|' ∉ request.target) (hkey : (keyedContext matchRoute epochs request).HasKey key) :
    ((keyedContext matchRoute epochs request).rawPath =
        boundedCopy kRawPathBufferSize (fullPath request.target) ∧
      (keyedContext matchRoute epochs request).rawQuery =
        boundedCopy kRawQueryBufferSize (fullQuery request.target)) ∧
    ('|' ∉ (keyedContext matchRoute epochs request).rawPath ∧
      '|' ∉ (keyedContext matchRoute epochs request).rawQuery) ∧
    ∃ epoch, KeysFor policy request.scope epoch (keyedContext matchRoute epochs request) := by
  obtain ⟨hframe, hmat⟩ := cacheKeyPrepareStage_frame epochs request.scope
    (requestContext (onRequestHeaders matchRoute (some request.target) {}) request)
  obtain ⟨policy', epoch, hfor⟩ := cacheKeyPrepareStage_keys epochs request.scope _ hkey
  obtain rfl := Option.some.inj ((hfor.matched.symm.trans hmat).trans hpol)
  obtain ⟨hpath, hquery⟩ := onRequestHeaders_target matchRoute request.target
  rw [keyedContext, hframe]
  refine ⟨⟨hpath, hquery⟩, ⟨?_, ?_⟩, epoch, hfor⟩
  · exact hpath ▸ not_mem_boundedCopy (not_mem_fullPath hbars)
  · exact hquery ▸ not_mem_boundedCopy (not_mem_fullQuery hbars)

/-- Two requests on one route that get one key: all targets that are seen as theirs ask for the same
    just if the route has no field variants or the queries fit. -/
theorem cut_off_targets_iff {epochs epochs' : Option RouteCacheEpochStore}
    {request request' : CacheRequest} {policy : RoutePolicy} {key : Text}
    (hpolicy : (onRequestHeaders matchRoute (some request.target) {}).matchedPolicy = some policy)
    (hpolicy' : (onRequestHeaders matchRoute (some request'.target) {}).matchedPolicy =
      some policy)
    (hbars : '|' ∉ request.target) (hbars' : '|' ∉ request'.target)
    (hkey : (keyedContext matchRoute epochs request).HasKey key)
    (hkey' : (keyedContext matchRoute epochs' request').HasKey key) :
    (∀ target target', '|' ∉ target → '|' ∉ target' → SeenAs target request.target →
        SeenAs target' request'.target → SameTarget target target') ↔
      policy.cache.fieldVariant.enabled = false ∨ QueriesFit request.target request'.target := by
  obtain ⟨⟨hctx, hrawQuery⟩, hclean, epoch, hfor⟩ := keyedContext_buffers hpolicy hbars hkey
  obtain ⟨⟨hctx', hrawQuery'⟩, hclean', epoch', hfor'⟩ :=
    keyedContext_buffers hpolicy' hbars' hkey'
  obtain ⟨hpath, hqs, hroom⟩ := keyQuery_of_key hfor hfor' hkey hkey' ⟨hclean.1, hclean'.1⟩
    ⟨hclean.2, hclean'.2⟩
  rw [hctx] at hpath hroom
  rw [hctx'] at hpath
  have hsizes : kCacheKeyMaxLen = 1024 ∧ kRawPathBufferSize = 1024 ∧ kRawQueryBufferSize = 1024 :=
    ⟨rfl, rfl, rfl⟩
  have hfitsPath : (boundedCopy kRawPathBufferSize (fullPath request.target)).length <
      kRawPathBufferSize - 1 := by omega
  have hpaths : ∀ {target target'}, SeenAs target request.target → SeenAs target' request'.target →
      fullPath target = fullPath target' := by
    intro target target' hseen hseen'
    rw [eq_of_boundedCopy hseen.path hfitsPath, eq_of_boundedCopy hpath (hpath ▸ hfitsPath),
      eq_of_boundedCopy hseen'.path (hpath ▸ hfitsPath)]
  have hcopy : ∀ {text : Text}, text.length < kRawQueryBufferSize - 1 →
      boundedCopy kRawQueryBufferSize text = text := fun h =>
    take_of_length_le (Nat.le_of_lt h)
  have hsize : ∀ {text : Text}, text.length < kRawQueryBufferSize - 1 →
      text.length < kRawQueryBufferSize := fun h => Nat.lt_of_lt_of_le h (Nat.sub_le _ _)
  cases hvars : policy.cache.fieldVariant.enabled with
  | false =>
    -- The whole query stands in the key.
    simp only [keyQuery, hvars, Bool.false_eq_true, if_false, hrawQuery, hrawQuery'] at hqs hroom
    have hshort : (boundedCopy kRawQueryBufferSize (fullQuery request.target)).length <
        kRawQueryBufferSize - 1 := by omega
    refine iff_of_true (fun target target' _ _ hseen hseen' => ⟨hpaths hseen hseen', ?_⟩) (.inl rfl)
    rw [eq_of_boundedCopy hseen.query hshort, eq_of_boundedCopy hseen'.query (hqs ▸ hshort),
      eq_of_boundedCopy hqs (hqs ▸ hshort)]
  | true =>
    simp only [keyQuery, hvars, if_true, sanitizedQuery_eq, hrawQuery, hrawQuery'] at hqs
    rw [or_iff_right (by simp)]
    constructor
    · intro hall
      have hmore : ∀ {target : Text}, '|' ∉ target → '|' ∉ target ++ lit "&x=1" := by
        intro target hbars hmem
        rcases mem_append.mp hmem with hmem | hmem
        · exact hbars hmem
        · exact absurd hmem (by simp [lit])
      have hsame := (hall _ _ hbars hbars' rfl rfl).2
      have hfits : (fullQuery request.target).length < kRawQueryBufferSize - 1 := by
        by_contra hfull
        obtain ⟨hseen, hdiffer⟩ := seenAs_append (Nat.not_lt.mp hfull)
        exact hdiffer ((hall _ _ (hmore hbars) hbars' hseen rfl).2.trans hsame.symm)
      have hfits' : (fullQuery request'.target).length < kRawQueryBufferSize - 1 := by
        by_contra hfull
        obtain ⟨hseen, hdiffer⟩ := seenAs_append (Nat.not_lt.mp hfull)
        exact hdiffer ((hall _ _ hbars (hmore hbars') rfl hseen).2.symm.trans hsame)
      rw [hcopy hfits, hcopy hfits'] at hqs
      exact ⟨hfits, hfits', (keptParams_eq_iff (hsize hfits) (hsize hfits') hqs).mp hsame⟩
    · rintro ⟨hfits, hfits', halike⟩ target target' - - hseen hseen'
      rw [hcopy hfits, hcopy hfits'] at hqs
      refine ⟨hpaths hseen hseen', ?_⟩
      rw [eq_of_boundedCopy hseen.query ((hcopy hfits).symm ▸ hfits),
        eq_of_boundedCopy hseen'.query ((hcopy hfits').symm ▸ hfits')]
      exact (keptParams_eq_iff (hsize hfits) (hsize hfits') hqs).mpr halike

/-! ### A route with field variants -/

/-- A `fields` parameter that fills the buffer, and what is behind it. -/
def longTarget (rest : Text) : Text := lit "/user?fields=" ++ List.replicate 1016 'a' ++ rest

def userEpochs : Option RouteCacheEpochStore := some (routeCacheEpochRegister [] (lit "user")).1

/-- The parameters behind the buffer are not in the key. -/
theorem cut_off_targets_share : validateRoutePolicy userRoute = none ∧
    ('|' ∉ longTarget (lit "&x=1") ∧ '|' ∉ longTarget (lit "&x=2")) ∧
      (∃ key,
        (keyedContext (fun _ => some userRoute) userEpochs
          { target := longTarget (lit "&x=1") }).cacheKey = some key ∧
        (keyedContext (fun _ => some userRoute) userEpochs
          { target := longTarget (lit "&x=2") }).cacheKey = some key) ∧
      ¬ SameTarget (longTarget (lit "&x=1")) (longTarget (lit "&x=2")) := by
  refine ⟨by decide +kernel, by decide +kernel, ⟨((keyedContext (fun _ => some userRoute) userEpochs
    { target := longTarget (lit "&x=1") }).cacheKey).getD [], by decide +kernel,
    by decide +kernel⟩, ?_⟩
  unfold SameTarget
  decide +kernel

theorem cut_off_targets_iff_short :
    (∀ target target', '|' ∉ target → '|' ∉ target' → SeenAs target (lit "/user?a=1") →
        SeenAs target' (lit "/user?fields=id&a=1") → SameTarget target target') ↔
      userRoute.cache.fieldVariant.enabled = false ∨
        QueriesFit (lit "/user?a=1") (lit "/user?fields=id&a=1") := by
  obtain ⟨key, hkey⟩ : ∃ key, (keyedContext (fun _ => some userRoute) userEpochs
      { target := lit "/user?a=1" }).cacheKey = some key :=
    Option.isSome_iff_exists.mp (by decide +kernel)
  have hsame : (keyedContext (fun _ => some userRoute) userEpochs
      { target := lit "/user?a=1" }).cacheKey = (keyedContext (fun _ => some userRoute) userEpochs
      { target := lit "/user?fields=id&a=1" }).cacheKey := by decide +kernel
  exact cut_off_targets_iff (onRequestHeaders_matchedPolicy (by decide +kernel))
    (onRequestHeaders_matchedPolicy (by decide +kernel)) (by decide +kernel) (by decide +kernel)
    (.inl hkey) (.inl (hsame.symm.trans hkey))

end ByteTaper.ExtProc
