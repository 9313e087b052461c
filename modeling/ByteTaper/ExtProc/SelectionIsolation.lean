import ByteTaper.Cache.CacheKeyIsolation
import ByteTaper.ExtProc.CachedExchange

/-! # Cached responses and field selections

A response in a cache has been filtered for the request that it was stored for. Without field variants
the raw key has the whole query in it, so that a request with the same key has the same selection. With
field variants the raw key leaves the selection out, and only the stages that store a response and those
of L2 test whether fields are selected; the lookup in L1 does not, and none of them tells a request
without a `fields` parameter from one whose parameter selects nothing. -/

namespace ByteTaper.ExtProc

open Cache FieldSelection JsonTransform Policy Stages ByteTaper.Runtime List Separated
open Transition (System)

variable {matchRoute : MatchRoute} {hash : Text → UInt64}

/-! ## The body depends on the selection only -/

/-- The same names are selected, as far as the filter looks at them. -/
def SameFields (context context' : ApgTransformContext) : Prop :=
  ∀ name, name ∈ context.selectedFields.take kMaxFields ↔
    name ∈ context'.selectedFields.take kMaxFields

theorem any_congr_of_mem {α : Type} {l l' : List α} (h : ∀ x, x ∈ l ↔ x ∈ l') (p : α → Bool) :
    l.any p = l'.any p := by
  rw [Bool.eq_iff_iff, any_eq_true, any_eq_true]
  simp [h]

section

variable {context context' : ApgTransformContext} (h : SameFields context context')

include h

theorem SameFields.matchSelection : matchSelectionCompiled (compileFieldSelection context) =
      matchSelectionCompiled (compileFieldSelection context') := by
  have hpaths : ∀ path, path ∈ ((context.selectedFields.take kMaxFields).filter
      (!·.val.isEmpty)).map compilePath ↔
        path ∈ ((context'.selectedFields.take kMaxFields).filter (!·.val.isEmpty)).map compilePath := by
    intro path
    simp [h _]
  funext fullPath
  unfold matchSelectionCompiled compileFieldSelection
  simp [any_congr_of_mem hpaths]

theorem SameFields.filterNested (inputBody : Text) (outputCapacity : Nat) :
    filterNestedJsonBySelectedFields inputBody context outputCapacity =
      filterNestedJsonBySelectedFields inputBody context' outputCapacity := by
  have hrules : selectionRules (compileFieldSelection context) =
      selectionRules (compileFieldSelection context') := by
    simp [selectionRules, h.matchSelection]
  have hnotation : selectionContainsUnsupportedArrayNotation context =
      selectionContainsUnsupportedArrayNotation context' := any_congr_of_mem h _
  simp [filterNestedJsonBySelectedFields, writeFilteredObject, hrules, hnotation]

end

/-- Two states in which every response is answered alike. -/
structure SameSelection (state state' : StreamFilterState) : Prop where
  policy : state.matchedPolicy = state'.matchedPolicy
  kind : state.responseKind = state'.responseKind
  non2xx : state.isNon2xxResponse = state'.isNon2xxResponse
  active : state.filteringActive = state'.filteringActive
  client : state.context.clientQueryPresent = state'.context.clientQueryPresent
  fields : SameFields state.context state'.context

variable {state state' : StreamFilterState} {policy : RoutePolicy} {name : FieldName}
  {context context' : CacheContext} {scope scope' : CacheScope} {epoch epoch' : UInt64}

theorem SameSelection.respond (h : SameSelection state state') (endOfStream : Bool)
    (inputBody : Text) :
    buildFilteredBodyResponse state endOfStream inputBody =
      buildFilteredBodyResponse state' endOfStream inputBody := by
  have href : ∀ policy, bodyRefused policy state endOfStream inputBody =
      bodyRefused policy state' endOfStream inputBody := by
    intro policy
    simp [bodyRefused, h.kind, h.non2xx, h.active]
  have htr : ∀ status parsed matched capacity,
      transformFlatJsonWithFilterToggle inputBody status parsed matched state.context true capacity =
        transformFlatJsonWithFilterToggle inputBody status parsed matched state'.context true
          capacity := by
    intro status parsed matched capacity
    simp [transformFlatJsonWithFilterToggle, bodyFilter, h.client, h.fields.filterNested]
  simp [buildFilteredBodyResponse, h.policy, h.kind, h.active, href, htr]

theorem SameSelection.responseHeaders (h : SameSelection state state')
    (status contentType : Option Text) :
    SameSelection (applyResponseContentType status contentType state)
      (applyResponseContentType status contentType state') := by
  unfold applyResponseContentType
  split
  · split
    · exact ⟨h.policy, rfl, rfl, h.active, h.client, h.fields⟩
    · exact ⟨h.policy, rfl, h.non2xx, h.active, h.client, h.fields⟩
  · exact ⟨h.policy, rfl, h.non2xx, h.active, h.client, h.fields⟩

/-! ## The selection of a request -/

variable {exchange first second : Exchange} {query value rawQuery key : Text} {a b : CacheKeyInput}
  {outSize : Nat}

theorem Exchange.Prepared.selected (h : exchange.Prepared matchRoute)
    (hpol : exchange.state.matchedPolicy = some policy) :
    exchange.state = selectedState policy exchange.state.context.rawPath
      exchange.state.context.rawQuery := by
  rw [h.state] at hpol ⊢
  obtain ⟨rawPath, rawQuery, hstate⟩ := onRequestHeaders_selected hpol
  obtain ⟨hpath, hquery⟩ : (selectedState policy rawPath rawQuery).context.rawPath = rawPath ∧
      (selectedState policy rawPath rawQuery).context.rawQuery = rawQuery := by
    obtain ⟨_, _, heq⟩ := prepareEffectiveFieldSelection_eq policy _
    rw [selectedState, heq]
    exact ⟨rfl, rfl⟩
  rw [hstate, hpath, hquery]

/-- Whether a body is filtered depends on the parameter only, not on what it selects. -/
theorem selectedState_active (policy : RoutePolicy) (rawPath rawQuery : Text) :
    (selectedState policy rawPath rawQuery).filteringActive =
      ((selectedState policy rawPath rawQuery).context.clientQueryPresent ||
        decide (policy.fieldFilter.mode ≠ .none)) := by
  simp only [selectedState, prepareEffectiveFieldSelectionFromPolicy,
    StreamFilterState.filteringActive]
  split
  next hmode => simp [hmode]
  next hmode =>
    split
    next hclient => simp [hmode, hclient]
    next => simp [hmode]
  next hmode => simp [hmode]

/-! ### The characters of the names -/

/-- The name comes from the query, or from the filter of the route. -/
theorem mem_parseFieldsValue (h : name ∈ parseFieldsValue value) :
    name.val ≠ [] ∧ ',' ∉ name.val ∧ ∀ c ∈ name.val, c ∈ value := by
  obtain ⟨token, htoken, rfl⟩ := mem_map.mp h
  obtain ⟨hsplit, hne⟩ := mem_filter.mp (mem_of_mem_take htoken)
  have hsub : ∀ c ∈ (boundedName token).val, c ∈ token := fun c hc => mem_of_mem_take hc
  refine ⟨?_, fun hc => ?_, fun c hc => mem_of_mem_splitOn hsplit (hsub c hc)⟩
  · cases token with
    | nil => simp at hne
    | cons => simp [boundedName, boundedCopy, kMaxFieldNameLen]
  · exact not_mem_of_mem_splitOn hsplit (hsub _ hc)

theorem mem_parseFieldsQueryParameter {params} (h : name ∈ parseFieldsQueryParameter params) :
    ∃ param ∈ params, ∃ value, param.value = some value ∧ name ∈ parseFieldsValue value := by
  induction params with
  | nil => cases h
  | cons param _ ih =>
    rw [parseFieldsQueryParameter] at h
    split at h
    · cases hval : param.value with
      | none => simp [hval] at h
      | some value => exact ⟨param, by simp, value, hval, by simpa [hval] using h⟩
    · obtain ⟨param', hmem, hval⟩ := ih h
      exact ⟨param', mem_cons_of_mem _ hmem, hval⟩

theorem mem_query_of_value {param : QueryParamView} (h : param ∈ parseQueryView rawQuery)
    (hval : param.value = some value) {c : Char} (hc : c ∈ value) : c ∈ rawQuery := by
  obtain ⟨segment, hseg, rfl⟩ := mem_map.mp h
  have hsplit := (mem_filter.mp (mem_of_mem_take hseg)).1
  have hdropped : c ∈ segment.dropWhile (· != '=') := by
    simp only [paramView] at hval
    split at hval
    · cases hval
    next hdrop =>
      cases hval
      rw [hdrop]
      exact mem_cons_of_mem _ hc
  exact mem_of_mem_splitOn hsplit ((dropWhile_sublist _).subset hdropped)

theorem selectedState_names {rawPath : Text}
    (h : name ∈ (selectedState policy rawPath rawQuery).context.selectedFields) :
    (name.val ≠ [] ∧ ',' ∉ name.val ∧ ∀ c ∈ name.val, c ∈ rawQuery) ∨
      name ∈ policy.fieldFilter.fields := by
  have hclient : name ∈ (enforceSelectedFieldsPolicy (parseAndStoreSelectedFields
      { rawPath, rawQuery }) policy.fieldFilter).selectedFields →
      name.val ≠ [] ∧ ',' ∉ name.val ∧ ∀ c ∈ name.val, c ∈ rawQuery := by
    intro hmem
    obtain ⟨param, hparam, value, hval, hname⟩ :=
      mem_parseFieldsQueryParameter (mem_filter.mp hmem).1
    obtain ⟨hne, hcomma, hsub⟩ := mem_parseFieldsValue hname
    exact ⟨hne, hcomma, fun c hc => mem_query_of_value hparam hval (hsub c hc)⟩
  simp only [selectedState, prepareEffectiveFieldSelectionFromPolicy] at h
  split at h
  · exact .inl (hclient h)
  · split at h
    · exact .inl (hclient h)
    · exact .inr h
  · exact .inl (hclient h)

/-! ## What equal keys have in common -/

theorem bar_not_mem_epochPart (input : CacheKeyInput) : '|' ∉ input.epochPart := by
  intro hmem
  rcases mem_append.mp hmem with hmem | hmem
  · exact absurd hmem (by simp [lit])
  · exact absurd (Nat.isDigit_of_mem_toDigits (by decide) (by decide) hmem) (by decide)

/-- Two keys of one route whose paths and queries have no bars agree on them, and on the fields if
    these have none either. -/
theorem keyText_parts (h : a.keyText = b.keyText) (hroute : a.routeId = b.routeId)
    (hready : a.routeCacheEpochReady ∧ b.routeCacheEpochReady)
    (hpath : '|' ∉ a.path.getD [] ∧ '|' ∉ b.path.getD [])
    (hquery : '|' ∉ a.query.getD [] ∧ '|' ∉ b.query.getD []) :
    a.variant = b.variant ∧ a.path.getD [] = b.path.getD [] ∧ a.query.getD [] = b.query.getD [] ∧
      ('|' ∉ a.fieldsPart → '|' ∉ b.fieldsPart → a.fieldsPart = b.fieldsPart) := by
  have hsegs : ∀ input : CacheKeyInput, input.routeCacheEpochReady →
      '|' ∉ input.path.getD [] → '|' ∉ input.query.getD [] → ∃ rest,
        input.keyParts.flatMap (List.splitOn '|') =
          (input.routeId.getD []).splitOn '|' ++ (input.epochPart :: input.path.getD [] ::
            input.query.getD [] :: (input.fieldsPart.splitOn '|' ++ rest)) := by
    intro input hready hpath hquery
    refine ⟨([input.policyVersion.getD []] ++
      (if input.varyHeaders = [] then [] else [input.varyPart]) ++
        (if input.privateCache then [input.scopePart] else [])).flatMap (List.splitOn '|'), ?_⟩
    rw [keyParts_around]
    simp [hready, flatMap_append, flatMap_cons,
      splitOn_eq_singleton (bar_not_mem_epochPart input), splitOn_eq_singleton hpath,
      splitOn_eq_singleton hquery]
  obtain ⟨hvar, hparts⟩ := keyText_eq_iff.mp h
  obtain ⟨rest, ha⟩ := hsegs a hready.1 hpath.1 hquery.1
  obtain ⟨rest', hb⟩ := hsegs b hready.2 hpath.2 hquery.2
  rw [ha, hb, hroute] at hparts
  obtain ⟨-, hpaths, hqs, hflds⟩ := by
    simpa only [List.cons.injEq] using append_cancel_left hparts
  refine ⟨hvar, hpaths, hqs, fun hfa hfb => ?_⟩
  rw [splitOn_eq_singleton hfa, splitOn_eq_singleton hfb] at hflds
  exact (List.cons.inj hflds).1

theorem mem_sanitizedQuery {c : Char} (h : c ∈ sanitizeQueryStripFieldsParam query outSize) :
    c ∈ query ∨ c = '&' ∨ c = '?' := by
  unfold sanitizeQueryStripFieldsParam at h
  generalize hleading : (if query.head? = some '?' then ['?'] else []) = leading at h
  dsimp only at h
  split at h
  · cases h
  split at h
  · cases h
  rcases mem_append.mp h with h | h
  · rw [← hleading] at h
    split at h
    · exact .inr (.inr (mem_singleton.mp h))
    · cases h
  · rcases mem_intercalate h with h | ⟨param, hparam, hc⟩
    · exact .inr (.inl h)
    · have hsplit := (mem_filter.mp hparam).1
      exact .inl (mem_of_mem_drop (mem_of_mem_splitOn hsplit hc))

theorem bar_not_mem_sanitizedQuery (h : '|' ∉ context.rawQuery) : '|' ∉ sanitizedQuery context := by
  unfold sanitizedQuery
  split
  · simp
  · intro hmem
    rcases mem_sanitizedQuery hmem with hmem | heq | heq
    · exact h hmem
    · cases heq
    · cases heq

/-! ## Requests whose keys keep their selections apart -/

/-- No bars in the paths and queries, names that can be read back, and, on a route with field variants,
    either both requests or none with a `fields` parameter, and nothing selected by the second if nothing
    is selected by the first. -/
@[mk_iff] structure Isolated (policy : RoutePolicy) (first second : ApgTransformContext) : Prop where
  paths : '|' ∉ first.rawPath ∧ '|' ∉ second.rawPath
  queries : '|' ∉ first.rawQuery ∧ '|' ∉ second.rawQuery
  names : ∀ name ∈ policy.fieldFilter.fields, name.val ≠ [] ∧ '|' ∉ name.val ∧ ',' ∉ name.val
  variants : policy.cache.fieldVariant.enabled = true →
    first.clientQueryPresent = second.clientQueryPresent ∧
      (first.selectedFields = [] → second.selectedFields = [])

instance (policy : RoutePolicy) (first second : ApgTransformContext) :
    Decidable (Isolated policy first second) :=
  decidable_of_iff' _ (isolated_iff policy first second)

/-- A raw key is not a variant key. -/
theorem rawKey_ne_variantKey : (rawKeyInput policy scope epoch context).keyText ≠
      (variantKeyInput policy scope' epoch' context').keyText := by
  intro h
  have hvar := (keyText_eq_iff.mp h).1
  unfold rawKeyInput at hvar
  split at hvar <;> cases hvar

/-- Equal variant keys come from the same names. -/
theorem variantKey_fields (hpath : '|' ∉ context.rawPath ∧ '|' ∉ context'.rawPath)
    (hquery : '|' ∉ context.rawQuery ∧ '|' ∉ context'.rawQuery)
    (hnames : ∀ name ∈ context.selectedFields, name.val ≠ [] ∧ '|' ∉ name.val ∧ ',' ∉ name.val)
    (hnames' : ∀ name ∈ context'.selectedFields, name.val ≠ [] ∧ '|' ∉ name.val ∧ ',' ∉ name.val)
    (h : (variantKeyInput policy scope epoch context).keyText =
      (variantKeyInput policy scope' epoch' context').keyText) :
    SameFields context.toApgTransformContext context'.toApgTransformContext := by
  have hclean : ∀ input : CacheKeyInput,
      (∀ name ∈ input.selectedFields, name.val ≠ [] ∧ '|' ∉ name.val ∧ ',' ∉ name.val) →
        (∀ text ∈ (keyFields input).map (·.val), text ≠ [] ∧ ',' ∉ text) ∧
          '|' ∉ input.fieldsPart := by
    intro input hin
    have htexts : ∀ text ∈ (keyFields input).map (·.val), text ≠ [] ∧ '|' ∉ text ∧ ',' ∉ text := by
      intro text htext
      obtain ⟨name, hname, rfl⟩ := mem_map.mp htext
      exact hin name (mem_of_mem_take (mem_keyFields.mp hname))
    refine ⟨fun text htext => ⟨(htexts text htext).1, (htexts text htext).2.2⟩, fun hmem => ?_⟩
    rcases mem_intercalate hmem with hcomma | ⟨text, htext, hbar⟩
    · cases hcomma
    · exact (htexts text htext).2.1 hbar
  obtain ⟨-, -, -, hflds⟩ := keyText_parts h rfl ⟨rfl, rfl⟩ hpath
    ⟨bar_not_mem_sanitizedQuery hquery.1, bar_not_mem_sanitizedQuery hquery.2⟩
  obtain ⟨htexts, hbars⟩ := hclean (variantKeyInput policy scope epoch context) hnames
  obtain ⟨htexts', hbars'⟩ := hclean (variantKeyInput policy scope' epoch' context') hnames'
  have hkeys := map_injective_iff.mpr Subtype.val_injective
    (intercalate_inj htexts htexts' (hflds hbars hbars'))
  intro name
  exact mem_keyFields.symm.trans ((iff_of_eq (congrArg (name ∈ ·) hkeys)).trans mem_keyFields)

theorem keyText_of_buildCacheKey {input : CacheKeyInput}
    (h : buildCacheKey input outSize = some key) : input.keyText = key :=
  (buildCacheKey_eq_some_iff.mp h).2.1.symm

/-- Two exchanges on one route in which every body is answered alike. -/
theorem Exchange.Prepared.respond_congr (hfst : first.Prepared matchRoute)
    (hsnd : second.Prepared matchRoute) (hpol : first.state.matchedPolicy = some policy)
    (hpol' : second.state.matchedPolicy = some policy)
    (hclient : first.state.context.clientQueryPresent = second.state.context.clientQueryPresent)
    (hflds : SameFields first.state.context second.state.context) (upstream : UpstreamResponse) :
    second.respond upstream = first.respond upstream := by
  have hsame : SameSelection first.state second.state := by
    have hframe : ∀ path query, (selectedState policy path query).matchedPolicy = some policy ∧
        (selectedState policy path query).responseKind = .skipUnsupported ∧
        (selectedState policy path query).isNon2xxResponse = false := by
      intro path query
      simp only [selectedState, prepareEffectiveFieldSelectionFromPolicy]
      split
      · exact ⟨rfl, rfl, rfl⟩
      · split <;> exact ⟨rfl, rfl, rfl⟩
      · exact ⟨rfl, rfl, rfl⟩
    rw [hfst.selected hpol, hsnd.selected hpol'] at hclient hflds ⊢
    refine ⟨?_, ?_, ?_, ?_, hclient, hflds⟩
    · rw [(hframe _ _).1, (hframe _ _).1]
    · rw [(hframe _ _).2.1, (hframe _ _).2.1]
    · rw [(hframe _ _).2.2, (hframe _ _).2.2]
    · rw [selectedState_active, selectedState_active, hclient]
  exact ((hsame.responseHeaders upstream.status upstream.contentType).respond
    upstream.endOfStream upstream.body).symm

/-- The names that a request on the route selects can be read back. -/
theorem Isolated.selected_names {first second}
    (h : Isolated policy first second) (hprep : exchange.Prepared matchRoute)
    (hpol : exchange.state.matchedPolicy = some policy)
    (hquery : '|' ∉ exchange.state.context.rawQuery) :
    ∀ name ∈ exchange.state.context.selectedFields,
      name.val ≠ [] ∧ '|' ∉ name.val ∧ ',' ∉ name.val := by
  intro name hname
  rw [hprep.selected hpol] at hname
  rcases selectedState_names hname with ⟨hne, hcomma, hsub⟩ | hmem
  · exact ⟨hne, fun hbar => hquery (hsub _ hbar), hcomma⟩
  · exact h.names name hmem

/-- The response to the first request is also that to the second, if it is stored under a key of the
    second. -/
theorem Isolated.respond (h : Isolated policy first.state.context second.state.context)
    (hfst : first.Prepared matchRoute) (hsnd : second.Prepared matchRoute)
    (hpol : first.state.matchedPolicy = some policy)
    (hpol' : second.state.matchedPolicy = some policy)
    (hstores : first.context.StoresUnder key) (hkey : second.context.HasKey key)
    (upstream : UpstreamResponse) : second.respond upstream = first.respond upstream := by
  obtain ⟨policy₁, epoch, hkeys⟩ := hfst.keys key hstores.hasKey
  obtain ⟨policy₂, epoch', hkeys'⟩ := hsnd.keys key hkey
  obtain rfl : policy₁ = policy :=
    Option.some.inj (hkeys.matched.symm.trans (hfst.matched.trans hpol))
  obtain rfl : policy₂ = policy₁ :=
    Option.some.inj (hkeys'.matched.symm.trans (hsnd.matched.trans hpol'))
  have hctx := hfst.context
  have hctx' := hsnd.context
  have hpaths := h.paths
  have hqs := h.queries
  rw [← hctx, ← hctx'] at hpaths hqs
  rcases hstores with ⟨hraw, policy₃, hmat, hsels⟩ | hvar
  · obtain rfl : policy₃ = policy₂ := Option.some.inj (hmat.symm.trans hkeys.matched)
    have htext := keyText_of_buildCacheKey (hkeys.raw key hraw)
    rcases hkey with hraw' | hvar'
    · have htext' := keyText_of_buildCacheKey (hkeys'.raw key hraw')
      cases hvars : policy₃.cache.fieldVariant.enabled with
      | false =>
        -- the whole query is in the key, so that equal keys come from equal targets
        simp only [rawKeyInput, hvars, Bool.false_eq_true, if_false] at htext htext'
        obtain ⟨-, (hpath : first.context.rawPath = second.context.rawPath),
          (hquery : first.context.rawQuery = second.context.rawQuery), -⟩ :=
          keyText_parts (htext.trans htext'.symm) rfl ⟨rfl, rfl⟩ hpaths hqs
        have hstate : first.state = second.state := by
          rw [hfst.selected hpol, hsnd.selected hpol', ← hctx, ← hctx', hpath, hquery]
        exact hfst.respond_congr hsnd hpol hpol' (by rw [hstate])
          (fun name => by rw [hstate]) upstream
      | true =>
        -- a raw key stands for an empty selection, of both
        obtain ⟨hclient, hempty⟩ := h.variants hvars
        have hnone : first.state.context.selectedFields = [] := by
          rw [← hctx]
          simpa [CacheContext.selectsVariant, hvars] using hsels
        exact hfst.respond_congr hsnd hpol hpol' hclient
          (fun name => by rw [hnone, hempty hnone]) upstream
    · exact absurd (htext.trans (keyText_of_buildCacheKey (hkeys'.variants key hvar').2).symm)
        rawKey_ne_variantKey
  · obtain ⟨hvars, hbuild⟩ := hkeys.variants key hvar
    have htext := keyText_of_buildCacheKey hbuild
    rcases hkey with hraw' | hvar'
    · exact absurd ((keyText_of_buildCacheKey (hkeys'.raw key hraw')).trans htext.symm)
        rawKey_ne_variantKey
    · have htext' := keyText_of_buildCacheKey (hkeys'.variants key hvar').2
      have hnames := h.selected_names hfst hpol h.queries.1
      have hnames' := h.selected_names hsnd hpol' h.queries.2
      rw [← hctx] at hnames
      rw [← hctx'] at hnames'
      have hflds := variantKey_fields hpaths hqs hnames hnames' (htext.trans htext'.symm)
      rw [hctx, hctx'] at hflds
      exact hfst.respond_congr hsnd hpol hpol' (h.variants hvars).1 hflds upstream

/-- The body that the client gets, if the body path lets the response through. -/
def Exchange.answer (exchange : Exchange) (upstream : UpstreamResponse) : Option Text :=
  (exchange.respond upstream).toOption.map (storedBody upstream.body)

/-- What is served may come from the record: it has the body, under a key of the request. -/
def StoredResponse.Explains (record : StoredResponse) (served : ServedResponse) : Prop :=
  ∃ key, record.exchange.context.StoresUnder key ∧ served.exchange.context.HasKey key ∧
    record.exchange.answer record.upstream = some served.hit.entry.body

/-- Along every run, a body from a cache comes from a record, and from whatever record it comes: it is
    the one that the body path makes for the request from the upstream response that was stored, if the
    two requests are isolated. -/
theorem cached_response_isolated (matchRoute : MatchRoute)
    (hash : Text → UInt64) (hasL1 hasL2 : Bool) (epochs : Option RouteCacheEpochStore)
    {q : CachedTraffic} (hq : (trafficSystem matchRoute hash hasL1 hasL2 epochs).Reachable q)
    {served : ServedResponse} (hserved : served ∈ q.served) :
    (∃ record ∈ q.stored, record.Explains served) ∧
      ∀ record ∈ q.stored, record.Explains served →
        ∀ policy, record.exchange.state.matchedPolicy = some policy →
          served.exchange.state.matchedPolicy = some policy →
          Isolated policy record.exchange.state.context served.exchange.state.context →
          served.exchange.answer record.upstream = some served.hit.entry.body := by
  have hinv := trafficInv_reachable hq
  have htraced := hinv.served served hserved
  refine ⟨?_, fun record hmem ⟨key, hstores, hkey, hans⟩ policy hfst hsnd hiso => ?_⟩
  · obtain ⟨record, hmem, key, hkey, hstores, hbody⟩ := htraced.source
    refine ⟨record, hmem, key, hstores, hkey, ?_⟩
    rw [Exchange.answer, (hinv.stored record hmem).respond, hbody]
    rfl
  · rw [← hans, Exchange.answer, Exchange.answer,
      hiso.respond (hinv.stored record hmem).prepared htraced.prepared hfst hsnd hstores hkey]

/-! ### A route with field variants -/

def userRoute : RoutePolicy where
  routeId := some (lit "user")
  matchPrefix := some (lit "/user")
  mutation := .full
  cache :=
    { behavior := .store, ttlSeconds := 60, enabled := true, l1 := { enabled := true }
      fieldVariant := { enabled := true, admissionThreshold := 1 } }

def userSystem : System CachedTraffic TrafficAction :=
  trafficSystem (fun _ => some userRoute) (fun _ => 0) true false
    (some (routeCacheEpochRegister [] (lit "user")).1)

def userResponse : UpstreamResponse where
  status := some (lit "200")
  contentType := some (lit "application/json")
  body := lit "\x7b\"id\":1,\"age\":2\x7d"

def l1Only : StoreEnvironment where
  hasL2Cache := false
  asyncStoreMaxBodySize := none
  accepts := false
  nowMs := 5

/-- The response to one request, and then some lookups for another. -/
def userRun (first second : Text) (stages : List LookupStage) : List TrafficAction :=
  [.request 0 { target := first }, .response 0 userResponse l1Only, .request 1 { target := second }] ++
    stages.map (.lookup 1)

theorem cached_response_isolated_variant : ∃ q,
    userSystem.run (userRun (lit "/user?fields=id") (lit "/user?fields=id") [.l1Cache, .l1Variant]) =
        some q ∧
      ∃ served ∈ q.served, ∃ record ∈ q.stored,
        served.exchange.answer record.upstream = some served.hit.entry.body := by
  obtain ⟨q, hrun, hsome, hiso⟩ : ∃ q,
      userSystem.run (userRun (lit "/user?fields=id") (lit "/user?fields=id")
        [.l1Cache, .l1Variant]) = some q ∧ 0 < q.served.length ∧
      ∀ served ∈ q.served, ∀ record ∈ q.stored, record.exchange.state.matchedPolicy.isSome ∧
        served.exchange.state.matchedPolicy.isSome ∧
        Isolated userRoute record.exchange.state.context served.exchange.state.context :=
    System.exists_run (by decide +kernel)
  obtain ⟨served, hserv⟩ := exists_mem_of_length_pos hsome
  have hq : userSystem.Reachable q := System.ReachableUnder.of_run (fun _ _ _ => trivial) hrun
  have hinv : TrafficInv (fun _ => some userRoute) q := trafficInv_reachable hq
  obtain ⟨⟨record, hmem, hexpl⟩, hans⟩ := cached_response_isolated _ _ _ _ _ hq hserv
  obtain ⟨hfst, hsnd, hapart⟩ := hiso served hserv record hmem
  exact ⟨q, hrun, served, hserv, record, hmem, hans record hmem hexpl userRoute
    ((hinv.stored record hmem).prepared.matched_of_const hfst)
    ((hinv.served served hserv).prepared.matched_of_const hsnd) hapart⟩

/-- The raw key leaves the selection out, and the lookup in L1 does not test it: the whole response is
    served to a request for one field. A selection of no fields is stored under the raw key, and served
    to a request without a selection. -/
theorem raw_key_crosses_selections : validateRoutePolicy userRoute = none ∧
    (∃ q, userSystem.run (userRun (lit "/user") (lit "/user?fields=id") [.l1Cache]) = some q ∧
      q.served.map (·.hit.entry.body) = [userResponse.body] ∧
      ∀ served ∈ q.served,
        served.exchange.answer userResponse = some (lit "\x7b\"id\":1\x7d")) ∧
    ∃ q, userSystem.run (userRun (lit "/user?fields=") (lit "/user") [.l1Cache]) = some q ∧
      q.served.map (·.hit.entry.body) = [lit "\x7b\x7d"] ∧
      ∀ served ∈ q.served, served.exchange.answer userResponse = some userResponse.body :=
  ⟨by decide +kernel, System.exists_run (by decide +kernel), System.exists_run (by decide +kernel)⟩

end ByteTaper.ExtProc
