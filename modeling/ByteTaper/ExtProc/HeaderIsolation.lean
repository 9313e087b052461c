import ByteTaper.Cache.CacheKeyIsolation
import ByteTaper.ExtProc.CachedExchange
import ByteTaper.ExtProc.RequestHeaders

/-! # Cached responses and the headers of their requests

A private route keeps the responses of different users apart, and the vary headers of a route those for
different values. Both stand in the key as hashes, at its end, so that nothing in a target can take
their place. Requests with credentials are kept away from the cache of a route that is not private. The
scan for credentials looks at two names in lower case and takes an empty value for none, and an absent
or empty vary header is hashed as a text that a header could have as its value. -/

namespace ByteTaper.ExtProc

open Cache Policy Stages ByteTaper.Runtime List RequestHeaderView
open TaperQuery (formatHex formatHex_inj)
open Transition (System)

variable {matchRoute : MatchRoute} {hash : Text → UInt64}

/-! ## Requests with headers -/

/-- The target and the scope of the request are those of its headers. -/
structure CacheRequest.FromHeaders (matchRoute : MatchRoute) (request : CacheRequest)
    (headers : List HeaderValue) : Prop where
  target : (scanRequestHeaders headers).path = some request.target
  scope : request.scope =
    cacheScope headers (onRequestHeaders matchRoute (some request.target) {}).matchedPolicy

instance (matchRoute : MatchRoute) (request : CacheRequest)
    (headers : List HeaderValue) : Decidable (request.FromHeaders matchRoute headers) :=
  decidable_of_iff ((scanRequestHeaders headers).path = some request.target ∧ request.scope =
      cacheScope headers (onRequestHeaders matchRoute (some request.target) {}).matchedPolicy)
    ⟨fun h => ⟨h.1, h.2⟩, fun h => ⟨h.target, h.scope⟩⟩

/-- The exchange has stored the entry of the key, or was answered with it. -/
def UsesEntry (q : CachedTraffic) (key : Text) (exchange : Exchange) : Prop :=
  (∃ record ∈ q.stored, record.exchange = exchange ∧ exchange.context.StoresUnder key) ∨
    ∃ served ∈ q.served, served.exchange = exchange ∧ exchange.context.HasKey key ∧
      ∃ record ∈ q.stored, record.exchange.context.StoresUnder key ∧
        served.hit.entry.body = record.body

/-- Two exchanges share a cached body. -/
def SharesEntry (q : CachedTraffic) (first second : Exchange) : Prop :=
  ∃ key, UsesEntry q key first ∧ UsesEntry q key second

/-- An `Authorization` or a `Cookie` header, with whatever value. -/
def CarriesCredentials (headers : List HeaderValue) : Prop :=
  ∃ value, CarriesHeader headers (lit "authorization") value ∨
    CarriesHeader headers (lit "cookie") value

/-- What the requests of two exchanges with one body have to agree in. -/
structure HeadersIsolated (policy : RoutePolicy) (first second : List HeaderValue) : Prop where
  credentials : policy.cache.privateCache = false →
    ¬ CarriesCredentials first ∧ ¬ CarriesCredentials second
  scope : policy.cache.privateCache = true → ∃ value,
    CarriesHeader first policy.cache.authScopeHeader value ∧
      CarriesHeader second policy.cache.authScopeHeader value
  vary : ∀ name ∈ policy.cache.varyHeaders, ∀ value,
    CarriesHeader first name value ↔ CarriesHeader second name value

/-! ## When they agree -/

/-- Credentials are in a header with a name in lower case and a value. -/
def CredentialsSeen (headers : List HeaderValue) : Prop :=
  CarriesCredentials headers → ∃ header ∈ headers,
    (header.key = lit "authorization" ∨ header.key = lit "cookie") ∧ header.val ≠ []

/-- The second request does not have the text that stands for what the first one has. -/
structure NoSentinel (first second : List HeaderValue) (name : Text) : Prop where
  missing : (∀ value, ¬ CarriesHeader first name value) →
    ¬ CarriesHeader second name (lit "<missing>")
  empty : CarriesHeader first name [] → ¬ CarriesHeader second name (lit "<empty>")

structure HeadersApart (policy : RoutePolicy) (first second : List HeaderValue) : Prop where
  credentials : policy.cache.privateCache = false → CredentialsSeen first ∧ CredentialsSeen second
  vary : ∀ name ∈ policy.cache.varyHeaders,
    NoSentinel first second name ∧ NoSentinel second first name

/-- The texts that are hashed for a request. -/
def hashedHeaders (policy : RoutePolicy) (headers : List HeaderValue) : List Text :=
  (if policy.cache.privateCache then
      (readHeaderValueCaseInsensitive headers policy.cache.authScopeHeader).toList
    else []) ++
    policy.cache.varyHeaders.map fun name =>
      varyValue (readHeaderValueCaseInsensitive headers name)

/-! ## Credentials -/

variable {headers : List HeaderValue} {q : CachedTraffic}

variable {policy : RoutePolicy} {key : Text} {exchange : Exchange}

/-- A request that is ready for a key of a shared route carries none, or hides them. -/
theorem not_carriesCredentials_iff (hunique : UniqueNames headers)
    (hshared : policy.cache.privateCache = false)
    (hbyp : (cacheScope headers (some policy)).cacheAuthBypass = false) :
    ¬ CarriesCredentials headers ↔ CredentialsSeen headers := by
  obtain ⟨hauth, hcookie⟩ := cacheScope_of_shared hshared hbyp
  refine ⟨fun hnone hcarr => absurd hcarr hnone, fun hseen => ?_⟩
  have hscan : ∀ (field : RequestHeaderView → Option Text) (key : Text),
      (∀ view header, field (RequestHeaderView.scan view header) =
        if header.key = key then some header.val else field view) → field {} = none →
      (field (scanRequestHeaders headers)).any (!·.isEmpty) = false →
      ∀ header ∈ headers, header.key = key → header.val = [] := by
    intro field key hfield hnone hany header hmem hkey
    have hsome : (headers.reverse.find? fun header => header.key = key).isSome :=
      find?_isSome.mpr ⟨header, mem_reverse.mpr hmem, by simpa using hkey⟩
    obtain ⟨found, hfind⟩ := Option.isSome_iff_exists.mp hsome
    have hkeys : found.key = header.key := by
      have hfound := find?_some hfind
      rw [hkey]
      simpa using hfound
    -- The name occurs once, so the last header with it is the header itself.
    have hmem' := mem_reverse.mp (mem_of_find?_eq_some hfind)
    obtain rfl := hunique.eq hmem' hmem (sameHeaderName_iff.mpr (by rw [hkeys]))
    rw [scanRequestHeaders_eq hfield hnone, hfind] at hany
    simpa using hany
  intro hcarr
  obtain ⟨header, hmem, hkey, hval⟩ := hseen hcarr
  rcases hkey with hkey | hkey
  · exact hval (hscan authorization _ scan_authorization rfl hauth header hmem hkey)
  · exact hval (hscan cookie _ scan_cookie rfl hcookie header hmem hkey)

/-! ## One pair of requests -/

section Pair

/-- A request that was ready for its key, and the key was built for the scope of its headers. -/
structure KeyedBy (policy : RoutePolicy) (headers : List HeaderValue) (context : CacheContext)
    (key : Text) : Prop where
  ready : ∃ epochs epoch, KeysReady epochs policy (cacheScope headers (some policy)) epoch context
  keys : ∃ epoch, KeysFor policy (cacheScope headers (some policy)) epoch context
  key : context.HasKey key

variable {policy : RoutePolicy} {first second : List HeaderValue} {context context' : CacheContext}
  {key : Text}

/-- A private scope is the hash of the value of its header. -/
theorem KeyedBy.privateScope (h : KeyedBy policy first context key)
    (hpriv : policy.cache.privateCache) : ∃ value,
      readHeaderValueCaseInsensitive first policy.cache.authScopeHeader = some value ∧
        (cacheScope first (some policy)).privateCacheScope = some (formatHex (valueHash value)) := by
  have hhash : ∀ {value hash : Text} {outSize : Nat},
      buildPrivateCacheScopeHash value outSize = some hash → hash = formatHex (valueHash value) := by
    intro value hash outSize hbuild
    unfold buildPrivateCacheScopeHash hashedValue at hbuild
    split at hbuild
    · cases hbuild
    · exact (Option.some.inj hbuild).symm
  obtain ⟨_, _, hready⟩ := h.ready
  have hscope := hready.scopeReady hpriv
  simp only [cacheScope, prepareCacheAuthContext, cacheAuthBypass, hpriv] at hscope ⊢
  simp only [if_true, Bool.not_true, Bool.or_self, Bool.false_eq_true, if_false] at hscope ⊢
  split at hscope
  · cases hscope
  rename_i hname
  rw [if_neg hname]
  split at hscope
  · cases hscope
  next value hval =>
    rw [hval]
    split at hscope
    · cases hscope
    next hash hbuild => exact ⟨value, rfl, by simp [hhash hbuild]⟩

/-- Requests with one key have the same hashes. -/
theorem KeyedBy.hashes (hfst : KeyedBy policy first context key)
    (hsnd : KeyedBy policy second context' key) :
    (policy.cache.privateCache →
        (cacheScope first (some policy)).privateCacheScope.getD [] =
          (cacheScope second (some policy)).privateCacheScope.getD []) ∧
      ∀ name ∈ policy.cache.varyHeaders,
        valueHash (varyValue (readHeaderValueCaseInsensitive first name)) =
          valueHash (varyValue (readHeaderValueCaseInsensitive second name)) := by
  obtain ⟨_, hkeys⟩ := hfst.keys
  obtain ⟨_, hkeys'⟩ := hsnd.keys
  obtain ⟨-, fields, variant, htext⟩ := hkeys.keyText_input hfst.key
  obtain ⟨-, fields', variant', htext'⟩ := hkeys'.keyText_input hsnd.key
  have hvary : ∀ headers, (cacheScope headers (some policy)).cacheVary =
      prepareCacheVaryContext headers policy := fun _ => rfl
  have hend := keyText_end (htext.symm.trans htext') rfl (by
      dsimp only [keyInput]
      split
      next hp =>
        obtain ⟨_, -, hval⟩ := hfst.privateScope hp
        obtain ⟨_, -, hval'⟩ := hsnd.privateScope hp
        simp [hval, hval']
      next => rfl)
    (by
      simp only [keyInput, hvary, prepareCacheVaryContext_eq]
      simp [CacheVaryKeyPart.text])
  simp only [keyInput, hvary, prepareCacheVaryContext_eq, map_map] at hend
  refine ⟨fun hp => ?_, fun name hname => ?_⟩
  · have hsame := hend.1 hp
    rwa [if_pos hp, if_pos hp] at hsame
  · have htexts := map_inj_left.mp hend.2 name hname
    simp only [Function.comp_apply, CacheVaryKeyPart.text, Option.getD_some,
      append_cancel_left_eq, List.cons.injEq, true_and] at htexts
    exact formatHex_inj htexts

/-- Equal texts for a vary header come from equal headers, unless one of them is a sentinel. -/
theorem carries_iff_noSentinel (hfst : UniqueNames first) (hsnd : UniqueNames second) {name : Text}
    (h : varyValue (readHeaderValueCaseInsensitive first name) =
      varyValue (readHeaderValueCaseInsensitive second name)) :
    (∀ value, CarriesHeader first name value ↔ CarriesHeader second name value) ↔
      NoSentinel first second name ∧ NoSentinel second first name := by
  have hempty : lit "<empty>" ≠ [] := varyValue_ne_nil (some [])
  have hsentinel : ∀ {headers other : List HeaderValue}, UniqueNames headers → UniqueNames other →
      (NoSentinel headers other name ↔ ¬ (readHeaderValueCaseInsensitive headers name = none ∧
            readHeaderValueCaseInsensitive other name = some (lit "<missing>")) ∧
          ¬ (readHeaderValueCaseInsensitive headers name = some [] ∧
            readHeaderValueCaseInsensitive other name = some (lit "<empty>"))) := by
    intro headers other hhdrs hother
    rw [Option.eq_none_iff_forall_ne_some, hother.read_eq_some_iff, hother.read_eq_some_iff,
      hhdrs.read_eq_some_iff]
    simp only [ne_eq, hhdrs.read_eq_some_iff, not_and]
    exact ⟨fun h => ⟨h.missing, h.empty⟩, fun h => ⟨h.1, h.2⟩⟩
  rw [hsentinel hfst hsnd, hsentinel hsnd hfst]
  simp only [← hfst.read_eq_some_iff, ← hsnd.read_eq_some_iff, ← Option.ext_iff]
  rcases varyValue_eq_iff.mp h with heq | ⟨h1, h2⟩ | ⟨h1, h2⟩ | ⟨h1, h2⟩ | ⟨h1, h2⟩
  · rw [heq]
    refine ⟨fun _ => ?_, fun _ => rfl⟩
    refine ⟨⟨?_, ?_⟩, ⟨?_, ?_⟩⟩ <;> rintro ⟨h1, h2⟩ <;> rw [h1] at h2
    all_goals first | cases h2 | exact hempty (Option.some.inj h2).symm
  · simp [h1, h2]
  · simp [h1, h2]
  · simp [h1, h2, hempty.symm]
  · simp [h1, h2, hempty]

/-- What one key says about the headers of two requests: the values of the scope header have one hash,
    and so have the texts for each vary header. -/
theorem KeyedBy.scopes (hfst : KeyedBy policy first context key)
    (hsnd : KeyedBy policy second context' key) :
    (policy.cache.privateCache → ∃ value value',
        readHeaderValueCaseInsensitive first policy.cache.authScopeHeader = some value ∧
          readHeaderValueCaseInsensitive second policy.cache.authScopeHeader = some value' ∧
          valueHash value = valueHash value') ∧
      ∀ name ∈ policy.cache.varyHeaders,
        valueHash (varyValue (readHeaderValueCaseInsensitive first name)) =
          valueHash (varyValue (readHeaderValueCaseInsensitive second name)) := by
  obtain ⟨hscope, hvary⟩ := hfst.hashes hsnd
  refine ⟨fun hpriv => ?_, hvary⟩
  obtain ⟨value, hread, hval⟩ := hfst.privateScope hpriv
  obtain ⟨value', hread', hval'⟩ := hsnd.privateScope hpriv
  have hhash := hscope hpriv
  rw [hval, hval', Option.getD_some, Option.getD_some] at hhash
  exact ⟨value, value', hread, hread', formatHex_inj hhash⟩

/-- Two requests with one key agree in what they have to, just if their headers are kept apart. -/
theorem headersIsolated_iff (hfst : UniqueNames first) (hsnd : UniqueNames second)
    (hcoll : NoCollisions (hashedHeaders policy first ++ hashedHeaders policy second))
    (hkeyed : KeyedBy policy first context key) (hkeyed' : KeyedBy policy second context' key) :
    HeadersIsolated policy first second ↔ HeadersApart policy first second := by
  obtain ⟨hscopes, hhashes⟩ := hkeyed.scopes hkeyed'
  have hscope : policy.cache.privateCache → ∃ value,
      CarriesHeader first policy.cache.authScopeHeader value ∧
        CarriesHeader second policy.cache.authScopeHeader value := by
    intro hpriv
    obtain ⟨value, value', hread, hread', hhash⟩ := hscopes hpriv
    obtain rfl : value = value' := by
      refine hcoll _ ?_ _ ?_ hhash
      · simp [hashedHeaders, hpriv, hread]
      · simp [hashedHeaders, hpriv, hread']
    exact ⟨value, hfst.read_eq_some_iff.mp hread, hsnd.read_eq_some_iff.mp hread'⟩
  have hvary : ∀ name ∈ policy.cache.varyHeaders,
      (∀ value, CarriesHeader first name value ↔ CarriesHeader second name value) ↔
        NoSentinel first second name ∧ NoSentinel second first name := by
    intro name hname
    refine carries_iff_noSentinel hfst hsnd (hcoll _ ?_ _ ?_ (hhashes name hname))
    · simp only [hashedHeaders, mem_append, mem_map]
      exact .inl (.inr ⟨name, hname, rfl⟩)
    · simp only [hashedHeaders, mem_append, mem_map]
      exact .inr (.inr ⟨name, hname, rfl⟩)
  obtain ⟨_, _, hready⟩ := hkeyed.ready
  obtain ⟨_, _, hready'⟩ := hkeyed'.ready
  have hcred : policy.cache.privateCache = false →
      ((¬ CarriesCredentials first ∧ ¬ CarriesCredentials second) ↔
        CredentialsSeen first ∧ CredentialsSeen second) := fun hshared =>
    and_congr (not_carriesCredentials_iff hfst hshared hready.notBypassed)
      (not_carriesCredentials_iff hsnd hshared hready'.notBypassed)
  constructor
  · intro h
    exact ⟨fun hshared => (hcred hshared).mp (h.credentials hshared),
      fun name hname => (hvary name hname).mp (h.vary name hname)⟩
  · intro h
    exact ⟨fun hshared => (hcred hshared).mpr (h.credentials hshared), hscope,
      fun name hname => (hvary name hname).mpr (h.vary name hname)⟩

end Pair

/-! ## Along runs -/

section

variable (hinv : TrafficInv matchRoute q) (hopened : OpenedInv matchRoute q)
  (h : UsesEntry q key exchange)

include hinv hopened h

theorem UsesEntry.opened :
    exchange.Prepared matchRoute ∧ exchange.Opened matchRoute ∧ exchange.context.HasKey key := by
  rcases h with ⟨record, hmem, rfl, hstores⟩ | ⟨served, hmem, rfl, hkey, -⟩
  · exact ⟨(hinv.stored record hmem).prepared, hopened.stored record hmem, hstores.hasKey⟩
  · exact ⟨(hinv.served served hmem).prepared, hopened.served served hmem, hkey⟩

theorem UsesEntry.keys (hpol : exchange.state.matchedPolicy = some policy)
    (hhdrs : exchange.request.FromHeaders matchRoute headers) :
    KeyedBy policy headers exchange.context key := by
  obtain ⟨hprep, hopen, hkey⟩ := h.opened hinv hopened
  have hctx : exchange.context.matchedPolicy = some policy := hprep.matched.trans hpol
  have hscope : exchange.request.scope = cacheScope headers (some policy) := by
    rw [hhdrs.scope, ← hprep.state, hpol]
  obtain ⟨epochs, policy₂, epoch, hready⟩ := hopen.ready hkey
  obtain ⟨policy₃, epoch', hfor⟩ := hprep.keys key hkey
  obtain rfl := Option.some.inj (hready.matched.symm.trans hctx)
  obtain rfl := Option.some.inj (hfor.matched.symm.trans hctx)
  exact ⟨⟨epochs, epoch, hscope ▸ hready⟩, ⟨epoch', hscope ▸ hfor⟩, hkey⟩

end

/-- A body from a cache is shared with the exchange that has stored it. -/
theorem TrafficInv.sharesEntry (h : TrafficInv matchRoute q) {served : ServedResponse}
    (hserv : served ∈ q.served) : ∃ record ∈ q.stored,
      served.hit.entry.body = record.body ∧ SharesEntry q served.exchange record.exchange := by
  obtain ⟨record, hrec, key, hkey, hstores, hbody⟩ := (h.served served hserv).source
  exact ⟨record, hrec, hbody, key, .inr ⟨served, hserv, rfl, hkey, record, hrec, hstores, hbody⟩,
    .inl ⟨record, hrec, rfl, hstores⟩⟩

/-- Along every run, a body from a cache is shared with the exchange that has stored it; and two
    exchanges on one route that share a body have isolated headers just if the headers are kept apart. -/
theorem private_vary_isolation_iff {hasL1 hasL2 : Bool} {epochs : Option RouteCacheEpochStore}
    {q : CachedTraffic} (hq : (trafficSystem matchRoute hash hasL1 hasL2 epochs).Reachable q) :
    (∀ served ∈ q.served, ∃ record ∈ q.stored, served.hit.entry.body = record.body ∧
        SharesEntry q served.exchange record.exchange) ∧
      ∀ first second, SharesEntry q first second →
        ∀ policy, first.state.matchedPolicy = some policy →
          second.state.matchedPolicy = some policy →
        ∀ headers headers', first.request.FromHeaders matchRoute headers →
          second.request.FromHeaders matchRoute headers' →
          UniqueNames headers → UniqueNames headers' →
          NoCollisions (hashedHeaders policy headers ++ hashedHeaders policy headers') →
          (HeadersIsolated policy headers headers' ↔ HeadersApart policy headers headers') := by
  have hinv := trafficInv_reachable hq
  have hopened := openedInv_reachable hq
  refine ⟨fun served hmem => hinv.sharesEntry hmem, ?_⟩
  rintro first second ⟨key, hfst, hsnd⟩ policy hpol hpol' headers headers' hhdr
    hhdr' hunique hunique' hcoll
  exact headersIsolated_iff hunique hunique' hcoll
    (hfst.keys hinv hopened hpol hhdr) (hsnd.keys hinv hopened hpol' hhdr')

/-! ### A route that varies by tenant -/

def tenantRoute : RoutePolicy where
  routeId := some (lit "orders")
  matchPrefix := some (lit "/orders")
  mutation := .full
  cache :=
    { behavior := .store, ttlSeconds := 60, enabled := true, l1 := { enabled := true }
      varyHeaders := [lit "x-tenant"] }

def tenantHeaders (tenant : Option Text) : List HeaderValue :=
  { key := lit ":path", rawValue := lit "/orders" } ::
    tenant.toList.map fun value => { key := lit "x-tenant", rawValue := value }

def tenantRequest (tenant : Option Text) : CacheRequest where
  target := lit "/orders"
  scope := cacheScope (tenantHeaders tenant) (some tenantRoute)

def tenantSystem : System CachedTraffic TrafficAction :=
  trafficSystem (fun _ => some tenantRoute) (fun _ => 0) true false
    (some (routeCacheEpochRegister [] (lit "orders")).1)

/-- The response to one tenant, and then the request of another. -/
def tenantRun (first second : Option Text) : List TrafficAction :=
  [.request 0 (tenantRequest first),
    .response 0
      { status := some (lit "200"), contentType := some (lit "application/json"), body := lit "1" }
      { hasL2Cache := false, asyncStoreMaxBodySize := none, accepts := false, nowMs := 5 },
    .request 1 (tenantRequest second), .lookup 1 .l1Cache]

/-- What a run of the two requests comes to: the second one is served, and both are known. -/
def ServedAcross (first second : Option Text) (q : CachedTraffic) : Prop :=
  0 < q.served.length ∧
    (∀ served ∈ q.served, served.exchange.state.matchedPolicy.isSome = true ∧
      served.exchange.request.FromHeaders (fun _ => some tenantRoute) (tenantHeaders second)) ∧
    ∀ record ∈ q.stored, record.exchange.state.matchedPolicy.isSome = true ∧
      record.exchange.request.FromHeaders (fun _ => some tenantRoute) (tenantHeaders first)

instance (first second : Option Text) : DecidablePred (ServedAcross first second) :=
  fun _ => inferInstanceAs (Decidable (_ ∧ _ ∧ _))

/-- A request without a tenant and one with the tenant `<missing>` share a response. -/
theorem sentinel_crosses_tenants : validateRoutePolicy tenantRoute = none ∧
    ∃ q, tenantSystem.run (tenantRun none (some (lit "<missing>"))) = some q ∧
      ∃ served ∈ q.served, ∃ record ∈ q.stored, served.hit.entry.body = record.body ∧
        SharesEntry q served.exchange record.exchange ∧
        served.exchange.request.FromHeaders (fun _ => some tenantRoute)
          (tenantHeaders (some (lit "<missing>"))) ∧
        record.exchange.request.FromHeaders (fun _ => some tenantRoute) (tenantHeaders none) ∧
        UniqueNames (tenantHeaders (some (lit "<missing>"))) ∧ UniqueNames (tenantHeaders none) ∧
        NoCollisions (hashedHeaders tenantRoute (tenantHeaders (some (lit "<missing>"))) ++
          hashedHeaders tenantRoute (tenantHeaders none)) ∧
        ¬ HeadersIsolated tenantRoute (tenantHeaders (some (lit "<missing>")))
          (tenantHeaders none) := by
  refine ⟨by decide +kernel, ?_⟩
  obtain ⟨q, hrun, hlen, hserv, hstored⟩ : ∃ q,
      tenantSystem.run (tenantRun none (some (lit "<missing>"))) = some q ∧
        ServedAcross none (some (lit "<missing>")) q :=
    System.exists_run (by decide +kernel)
  have hq : tenantSystem.Reachable q := System.ReachableUnder.of_run (fun _ _ _ => trivial) hrun
  obtain ⟨served, hmem⟩ := exists_mem_of_length_pos hlen
  obtain ⟨record, hrec, hbody, hshares⟩ := (trafficInv_reachable hq).sharesEntry hmem
  refine ⟨q, hrun, served, hmem, record, hrec, hbody, hshares, (hserv served hmem).2,
    (hstored record hrec).2, by unfold UniqueNames; decide +kernel,
    by unfold UniqueNames; decide +kernel, by unfold NoCollisions; decide +kernel, fun h => ?_⟩
  have hcarries : CarriesHeader (tenantHeaders (some (lit "<missing>"))) (lit "x-tenant")
      (lit "<missing>") := by
    unfold CarriesHeader
    decide +kernel
  have hnot : ¬ CarriesHeader (tenantHeaders none) (lit "x-tenant") (lit "<missing>") := by
    unfold CarriesHeader
    decide +kernel
  exact hnot ((h.vary (lit "x-tenant") (by decide +kernel) _).mp hcarries)

theorem private_vary_isolation_iff_tenant : ∃ q,
    tenantSystem.run (tenantRun (some (lit "a")) (some (lit "a"))) = some q ∧
      ∃ served ∈ q.served, ∃ record ∈ q.stored,
        SharesEntry q served.exchange record.exchange ∧
        (HeadersIsolated tenantRoute (tenantHeaders (some (lit "a")))
            (tenantHeaders (some (lit "a"))) ↔
          HeadersApart tenantRoute (tenantHeaders (some (lit "a")))
            (tenantHeaders (some (lit "a")))) := by
  obtain ⟨q, hrun, hlen, hserv, hstored⟩ : ∃ q,
      tenantSystem.run (tenantRun (some (lit "a")) (some (lit "a"))) = some q ∧
        ServedAcross (some (lit "a")) (some (lit "a")) q :=
    System.exists_run (by decide +kernel)
  have hq : tenantSystem.Reachable q := System.ReachableUnder.of_run (fun _ _ _ => trivial) hrun
  have hinv : TrafficInv (fun _ => some tenantRoute) q := trafficInv_reachable hq
  obtain ⟨served, hmem⟩ := exists_mem_of_length_pos hlen
  obtain ⟨hsources, hiso⟩ := private_vary_isolation_iff hq
  obtain ⟨record, hrec, -, hshares⟩ := hsources served hmem
  have hunique : UniqueNames (tenantHeaders (some (lit "a"))) := by
    unfold UniqueNames
    decide +kernel
  exact ⟨q, hrun, served, hmem, record, hrec, hshares, hiso _ _ hshares tenantRoute
      ((hinv.served served hmem).prepared.matched_of_const (hserv served hmem).1)
      ((hinv.stored record hrec).prepared.matched_of_const (hstored record hrec).1) _ _
      (hserv served hmem).2 (hstored record hrec).2 hunique hunique
      (by unfold NoCollisions; decide +kernel)⟩

end ByteTaper.ExtProc
