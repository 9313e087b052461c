import ByteTaper.ExtProc.ResponseBody
import ByteTaper.Stages.CacheLayers

/-! # Where a cached response comes from

Exchanges on the routes of one policy snapshot, with the two cache layers between them. A request
prepares its keys and looks them up; the response to it is stored under some of its keys, to L1 at once
and to L2 by a job; another job copies an entry from L2 to L1. A lookup stage is a step of its own,
because followers run the stages again while they wait. The responses that were stored and those that
were served from a cache are logged; the logs are not in the source. What is served was stored for an
earlier exchange, under a key that both have. -/

namespace ByteTaper.ExtProc

open Cache FieldSelection Policy Stages ByteTaper.Runtime List Function Option L1Cache
open Transition (System)

/-! ## Exchanges -/

structure CacheRequest where
  target : Text
  method : HttpMethod := .get
  scope : CacheScope := {}
  requestEpochMs : Int64 := 0
deriving DecidableEq

structure UpstreamResponse where
  status : Option Text
  contentType : Option Text
  endOfStream : Bool := true
  body : Text

/-- An exchange after its request headers. -/
structure Exchange where
  request : CacheRequest
  state : StreamFilterState
  context : CacheContext

def requestContext (state : StreamFilterState) (request : CacheRequest) : CacheContext where
  toApgTransformContext := state.context
  matchedPolicy := state.matchedPolicy
  requestMethod := request.method
  requestEpochMs := request.requestEpochMs

/-- The request headers, up to the admission of the variant. -/
def openExchange (matchRoute : MatchRoute) (epochs : Option RouteCacheEpochStore)
    (admissions : VariantAdmissionRegistry) (request : CacheRequest) :
    VariantAdmissionRegistry × Exchange :=
  let state := onRequestHeaders matchRoute (some request.target) {}
  let context := (cacheKeyPrepareStage epochs request.scope (requestContext state request)).1
  let admitted := fieldVariantAdmissionStage admissions context
  (admitted.1, { request, state, context := admitted.2.1 })

variable (exchange : Exchange) (upstream : UpstreamResponse)

/-- The state in which the response body is met. -/
def Exchange.responseState : StreamFilterState :=
  applyResponseContentType upstream.status upstream.contentType exchange.state

/-- What the response-body path makes of the upstream response. -/
def Exchange.respond : Except FailOpenReason BodyResponse :=
  buildFilteredBodyResponse (exchange.responseState upstream) upstream.endOfStream upstream.body

/-- `atoi` of the `:status` header. -/
def statusCode (status : Option Text) : UInt16 :=
  (Nat.ofDigitChars 10 ((status.getD []).takeWhile Char.isDigit) 0).toUInt16

def BodyResponse.removedFieldCount : BodyResponse → Nat
  | .unchanged => 0
  | .filtered body => body.removedFieldCount

/-- Only a body that is filtered is counted. -/
def BodyResponse.inputPayloadBytes (inputBody : Text) : BodyResponse → Nat
  | .unchanged => 0
  | .filtered _ => inputBody.length

/-- The context that the store stages see. -/
def Exchange.storeContext (response : BodyResponse) : CacheContext :=
  { exchange.context with
    responseStatusCode := statusCode upstream.status
    responseContentType := boundedCopy kCacheContentTypeMaxLen (upstream.contentType.getD [])
    responseBody := storedBody upstream.body response
    inputPayloadBytes := response.inputPayloadBytes upstream.body
    removedFieldCount := response.removedFieldCount }

/-- The entry of the job that `l2_cache_async_store_enqueue_stage` enqueues. -/
def enqueuedEntry (context : CacheContext) (env : StoreEnvironment) : Option CacheEntry :=
  match l2StoreKey context env with
  | .ok (key, ttlMs) => if env.accepts then some (responseEntry context key ttlMs) else none
  | .error _ => none

/-! ## The system -/

/-- A response that the store pipeline was run for. -/
structure StoredResponse where
  exchange : Exchange
  upstream : UpstreamResponse
  response : BodyResponse

def StoredResponse.context (record : StoredResponse) : CacheContext :=
  record.exchange.storeContext record.upstream record.response

/-- A response that was served from a cache. -/
structure ServedResponse where
  exchange : Exchange
  hit : CacheHit

structure CachedTraffic where
  l1 : Option L1Cache
  l2 : Option L2Store
  epochs : Option RouteCacheEpochStore
  admissions : VariantAdmissionRegistry := []
  exchanges : Nat → Option Exchange := fun _ => none
  storeJobs : List CacheEntry := []
  lookupJobs : List Text := []
  stored : List StoredResponse := []
  served : List ServedResponse := []

inductive LookupStage where
  | l1Cache | l1Variant | l2Cache

inductive TrafficAction where
  | request (id : Nat) (request : CacheRequest)
  | lookup (id : Nat) (stage : LookupStage)
  /-- `accepts` is what the worker queue answers, if there is one. -/
  | enqueueLookup (id : Nat) (accepts : Option Bool)
  | response (id : Nat) (upstream : UpstreamResponse) (env : StoreEnvironment)
  | runStoreJob
  | runLookupJob (nowMs : Int64)
  | bumpEpoch (routeId : Text)
  | removeL1 (key : Text)
  | removeL2 (key : Text)
  | cleanupL1 (request : L1RouteNamespaceCleanupRequest)

namespace CachedTraffic

/-- A hit ends the exchange. -/
def serve (q : CachedTraffic) (id : Nat) (exchange : Exchange) : Option CacheHit → CachedTraffic
  | none => q
  | some hit =>
    { q with
      served := q.served ++ [{ exchange, hit }], exchanges := Function.update q.exchanges id none }

section Step

variable (matchRoute : MatchRoute) (hash : Text → UInt64)
  (q : CachedTraffic)

def lookup (id : Nat) (exchange : Exchange) : LookupStage → CachedTraffic
  | .l1Cache => q.serve id exchange (l1CacheLookupStage hash q.l1 exchange.context).1
  | .l1Variant =>
    q.serve id exchange (l1VariantLookupStage hash q.l1 exchange.context).1
  | .l2Cache =>
    let found := l2CacheLookupStage hash q.l1 q.l2 exchange.context
    { q with l1 := found.1 }.serve id exchange found.2.1

/-- The store pipeline, for a response that the body path lets through. -/
def store (record : StoredResponse) (env : StoreEnvironment) : CachedTraffic :=
  let raw := (l1CacheStoreStage hash q.l1 record.context).1
  { q with
    l1 := (l1VariantStoreStage hash raw record.context).1
    storeJobs := q.storeJobs ++ (enqueuedEntry record.context env).toList
    stored := q.stored ++ [record] }

/-- The response-body phase. A route that does not store runs no store pipeline. -/
def respond (exchange : Exchange) (upstream : UpstreamResponse) (env : StoreEnvironment) :
    CachedTraffic :=
  match exchange.respond upstream, exchange.state.matchedPolicy with
  | .ok response, some policy =>
    if policy.cache.behavior = .store then
      q.store hash { exchange, upstream, response } env
    else q
  | _, _ => q

def step : TrafficAction → Option CachedTraffic
  | .request id request =>
    let opened := openExchange matchRoute q.epochs q.admissions request
    some { q with
      admissions := opened.1, exchanges := Function.update q.exchanges id (some opened.2) }
  | .lookup id stage => (q.exchanges id).map fun exchange =>
    q.lookup hash id exchange stage
  | .enqueueLookup id accepts => (q.exchanges id).map fun exchange =>
    { q with
      lookupJobs := q.lookupJobs ++
        (l2CacheAsyncLookupEnqueueStage false q.l2.isSome accepts exchange.context).1.toList }
  | .response id upstream env => (q.exchanges id).map fun exchange =>
    { q with exchanges := Function.update q.exchanges id none }.respond hash exchange upstream env
  | .runStoreJob =>
    match q.storeJobs with
    | [] => none
    | entry :: rest => some { q with storeJobs := rest, l2 := q.l2.map (l2Put · entry) }
  | .runLookupJob nowMs =>
    match q.lookupJobs with
    | [] => none
    | key :: rest =>
      some { q with
        lookupJobs := rest, l1 := executeLookupJob hash q.l1 q.l2 key nowMs }
  | .bumpEpoch routeId =>
    some { q with epochs := q.epochs.map fun store => (bumpAll store [routeId]).1 }
  | .removeL1 key => some { q with l1 := q.l1.map fun l1 => (l1Remove hash l1 key).1 }
  | .removeL2 key => some { q with l2 := q.l2.map (l2Remove · key) }
  | .cleanupL1 request =>
    some { q with l1 := q.l1.map fun l1 => (l1CleanupRouteNamespace l1 request).1 }

end Step

end CachedTraffic

/-- The caches are empty, and each of them may be missing. -/
def trafficSystem (matchRoute : MatchRoute) (hash : Text → UInt64)
    (hasL1 hasL2 : Bool) (epochs : Option RouteCacheEpochStore) :
    System CachedTraffic TrafficAction where
  init :=
    { l1 := if hasL1 then some l1Init else none
      l2 := if hasL2 then some fun _ => none else none
      epochs }
  step := CachedTraffic.step matchRoute hash

/-! ## Prepared exchanges -/

variable (matchRoute : MatchRoute) {hash : Text → UInt64}

/-- The exchange is as its request headers have left it. -/
structure Exchange.Prepared (exchange : Exchange) : Prop where
  state : exchange.state = onRequestHeaders matchRoute (some exchange.request.target) {}
  context : exchange.context.toApgTransformContext = exchange.state.context
  matched : exchange.context.matchedPolicy = exchange.state.matchedPolicy
  keys : ∀ key, exchange.context.HasKey key →
    ∃ policy epoch, KeysFor policy exchange.request.scope epoch exchange.context

theorem openExchange_prepared {epochs admissions request} :
    (openExchange matchRoute epochs admissions request).2.Prepared matchRoute := by
  simp only [openExchange]
  obtain ⟨hctx, hmat⟩ := cacheKeyPrepareStage_frame epochs request.scope
    (requestContext (onRequestHeaders matchRoute (some request.target) {}) request)
  obtain ⟨passed, hadm, -⟩ := fieldVariantAdmissionStage_frame admissions
    (cacheKeyPrepareStage epochs request.scope
      (requestContext (onRequestHeaders matchRoute (some request.target) {}) request)).1
  rw [hadm]
  refine ⟨rfl, hctx, hmat, fun key hkey => ?_⟩
  obtain ⟨policy, epoch, hfor⟩ := cacheKeyPrepareStage_keys epochs request.scope _ hkey
  exact ⟨policy, epoch, hfor.matched, hfor.raw, hfor.variants⟩

variable {matchRoute} {exchange : Exchange} {stored : List StoredResponse} {entry : CacheEntry}
  {l1 : L1Cache} {epochs : Option RouteCacheEpochStore}

/-- With one route, every exchange on a route is on this one. -/
theorem Exchange.Prepared.matched_of_const {policy : RoutePolicy}
    (h : exchange.Prepared fun _ => some policy)
    (hsome : exchange.state.matchedPolicy.isSome) :
    exchange.state.matchedPolicy = some policy := by
  rw [h.state] at hsome ⊢
  unfold onRequestHeaders at hsome ⊢
  dsimp only at hsome ⊢
  split at hsome
  · cases hsome
  next policy' hmatch =>
    rw [prepareEffectiveFieldSelection_matchedPolicy]
    split at hmatch
    · cases hmatch
    · exact hmatch.symm

variable {key : Text} {hasL1 hasL2 : Bool} {q : CachedTraffic}

/-- A key of an exchange fits its buffer. -/
theorem Exchange.Prepared.key_fits (h : exchange.Prepared matchRoute)
    (hkey : exchange.context.HasKey key) : key.length < kCacheKeyMaxLen := by
  obtain ⟨policy, epoch, hfor⟩ := h.keys key hkey
  have hlen : ∀ input, buildCacheKey input kCacheKeyMaxLen = some key →
      key.length < kCacheKeyMaxLen := by
    intro input hbuild
    obtain ⟨-, -, hroom⟩ := buildCacheKey_eq_some_iff.mp hbuild
    omega
  rcases hkey with hkey | hkey
  · exact hlen _ (hfor.raw key hkey)
  · exact hlen _ (hfor.variants key hkey).2

/-! ## Provenance -/

variable (matchRoute stored entry l1)

/-- The record is of a response that the body path has let through. -/
structure StoredResponse.Sound (record : StoredResponse) : Prop where
  prepared : record.exchange.Prepared matchRoute
  respond : record.exchange.respond record.upstream = .ok record.response

def StoredResponse.body (record : StoredResponse) : Text :=
  storedBody record.upstream.body record.response

def Recorded : Prop :=
  ∃ record ∈ stored, record.context.Entry entry

/-- What was served is the body of a record, under a key of both exchanges. -/
structure ServedResponse.Traced (served : ServedResponse) : Prop where
  prepared : served.exchange.Prepared matchRoute
  source : ∃ record ∈ stored, ∃ key, served.exchange.context.HasKey key ∧
    record.exchange.context.StoresUnder key ∧ served.hit.entry.body = record.body

/-- What L1 holds was stored, and fits L1. -/
def L1Recorded : Prop :=
  l1.All fun entry => Recorded stored entry ∧ entry.body.length ≤ kL1MaxBodySize

/-- Everything in the caches, in the jobs and in the log of served responses was stored. -/
structure TrafficInv (q : CachedTraffic) : Prop where
  exchanges : ∀ id exchange, q.exchanges id = some exchange → exchange.Prepared matchRoute
  stored : ∀ record ∈ q.stored, record.Sound matchRoute
  l1 : ∀ l1, q.l1 = some l1 → L1Recorded q.stored l1
  l2 : ∀ l2, q.l2 = some l2 → ∀ key entry, l2 key = some entry →
    Recorded q.stored entry ∧ entry.key = key
  storeJobs : ∀ entry ∈ q.storeJobs, Recorded q.stored entry
  served : ∀ served ∈ q.served, served.Traced matchRoute q.stored

variable {matchRoute stored entry l1}

theorem Recorded.snoc (h : Recorded stored entry) (record : StoredResponse) :
    Recorded (stored ++ [record]) entry := by
  obtain ⟨r, hmem, hentry⟩ := h
  exact ⟨r, mem_append_left _ hmem, hentry⟩

theorem Recorded.encoded (h : Recorded stored entry) : Recorded stored entry.encoded := by
  obtain ⟨r, hmem, hentry⟩ := h
  exact ⟨r, hmem, hentry.body, hentry.key⟩

theorem ServedResponse.Traced.snoc {served : ServedResponse} (h : served.Traced matchRoute stored)
    (record : StoredResponse) : served.Traced matchRoute (stored ++ [record]) := by
  obtain ⟨r, hmem, hsource⟩ := h.source
  exact ⟨h.prepared, r, mem_append_left _ hmem, hsource⟩

theorem body_le_of_canStore {bodyPresent : Bool} (h : l1CanStoreEntry entry bodyPresent) :
    entry.body.length ≤ kL1MaxBodySize := by
  simp only [l1CanStoreEntry, Bool.and_eq_true, Bool.not_eq_true', decide_eq_false_iff_not] at h
  omega

section

variable (h : L1Recorded stored l1) (hentry : Recorded stored entry) (bodyPresent : Bool)

include h hentry

theorem L1Recorded.put : L1Recorded stored (l1Put hash l1 entry bodyPresent) :=
  All.put h fun hstore => ⟨hentry, body_le_of_canStore hstore⟩

theorem L1Recorded.putIfNewer : L1Recorded stored (l1PutIfNewer hash l1 entry bodyPresent).1 :=
  All.putIfNewer h fun hstore => ⟨hentry, body_le_of_canStore hstore⟩

end

theorem L1Recorded.snoc (h : L1Recorded stored l1) (record : StoredResponse) :
    L1Recorded (stored ++ [record]) l1 :=
  All.mono h fun _ hentry => ⟨hentry.1.snoc record, hentry.2⟩

/-- What holds of the open exchanges and of a new one. -/
theorem forall_update {exchanges} {P : Exchange → Prop}
    (h : ∀ id exchange, exchanges id = some exchange → P exchange) {id : Nat}
    {new : Option Exchange} (hnew : ∀ exchange, new = some exchange → P exchange) :
    ∀ j exchange, update exchanges id new j = some exchange → P exchange := by
  intro j exchange hj
  by_cases hid : j = id
  · subst hid
    rw [update_self] at hj
    exact hnew exchange hj
  · rw [update_of_ne hid] at hj
    exact h j exchange hj

namespace TrafficInv

variable (h : TrafficInv matchRoute q) {record : StoredResponse} {hit : CacheHit}

include h

theorem setL1 {l1 : Option L1Cache}
    (hl1 : ∀ cache, l1 = some cache → L1Recorded q.stored cache) :
    TrafficInv matchRoute { q with l1 } :=
  ⟨h.exchanges, h.stored, hl1, h.l2, h.storeJobs, h.served⟩

theorem setExchange (id : Nat) {exchange : Option Exchange}
    (hexchange : ∀ e, exchange = some e → e.Prepared matchRoute) :
    TrafficInv matchRoute { q with exchanges := update q.exchanges id exchange } :=
  ⟨forall_update h.exchanges hexchange, h.stored, h.l1, h.l2, h.storeJobs, h.served⟩

theorem serve (id : Nat) {hit : Option CacheHit}
    (hhit : ∀ found, hit = some found →
      ServedResponse.Traced matchRoute q.stored { exchange, hit := found }) :
    TrafficInv matchRoute (q.serve id exchange hit) := by
  cases hit with
  | none => exact h
  | some hit =>
    have hcls : TrafficInv matchRoute { q with exchanges := update q.exchanges id none } :=
      h.setExchange id fun e he => by cases he
    refine ⟨hcls.exchanges, h.stored, h.l1, h.l2, h.storeJobs, ?_⟩
    exact forall_mem_append.mpr ⟨h.served, forall_mem_singleton.mpr (hhit hit rfl)⟩

/-- A recorded entry is under a key of its record. -/
theorem source (hentry : Recorded q.stored entry) :
    ∃ record ∈ q.stored,
      record.exchange.context.StoresUnder entry.key ∧ entry.body = record.body := by
  obtain ⟨record, hmem, hbody, key, hstores, hkey⟩ := hentry
  have hstores : record.exchange.context.StoresUnder key := hstores
  have hfits := (h.stored record hmem).prepared.key_fits hstores.hasKey
  rw [take_of_length_le (by omega)] at hkey
  exact ⟨record, hmem, hkey ▸ hstores, hbody⟩

section

variable (hexchange : exchange.Prepared matchRoute)

include hexchange

theorem traced_l1 (hhit : ∃ cache key, q.l1 = some cache ∧ exchange.context.HasKey key ∧
      l1Get hash cache key exchange.context.requestEpochMs kL2BodyBufSize =
        some hit.entry) : ServedResponse.Traced matchRoute q.stored { exchange, hit } := by
  obtain ⟨cache, key, hl1, hkey, hget⟩ := hhit
  obtain ⟨entry, ⟨hrec, hfits⟩, hsame, hfound⟩ := All.get (h.l1 cache hl1) hget
  obtain ⟨record, hmem, hstores, hbody⟩ := h.source hrec
  have hstoredFits := (h.stored record hmem).prepared.key_fits hstores.hasKey
  have hkeyFits := hexchange.key_fits hkey
  have heq : entry.key = key := by
    unfold sameKey at hsame
    rwa [take_of_length_le (by omega), take_of_length_le (by omega), beq_iff_eq] at hsame
  refine ⟨hexchange, record, hmem, key, hkey, heq ▸ hstores, ?_⟩
  have hcopy : hit.entry.body = entry.body.take kL2BodyBufSize := by rw [hfound]; rfl
  have hsize : kL1MaxBodySize ≤ kL2BodyBufSize := by decide
  rw [hcopy, take_of_length_le (by omega), hbody]

theorem lookup (id : Nat) (stage : LookupStage) :
    TrafficInv matchRoute (q.lookup hash id exchange stage) := by
  cases stage with
  | l1Cache =>
    exact h.serve id fun found hfound => h.traced_l1 hexchange (l1CacheLookupStage_hit hfound)
  | l1Variant =>
    exact h.serve id fun found hfound => h.traced_l1 hexchange (l1VariantLookupStage_hit hfound)
  | l2Cache =>
    have hcases := @l2CacheLookupStage_cases hash q.l1 q.l2 exchange.context
    rcases hcases with ⟨hl1, hhit⟩ | ⟨store, key, hit, hl2, hkey, hentry, hl1, hhit⟩
    · simp only [CachedTraffic.lookup, hl1, hhit]
      exact h
    · simp only [CachedTraffic.lookup, hl1, hhit]
      refine (h.setL1 fun cache hcache => ?_).serve id fun found hfound => ?_
      · obtain ⟨l1, hq, rfl⟩ := map_eq_some_iff.mp hcache
        exact (h.l1 l1 hq).put (h.l2 store hl2 key _ hentry).1 true
      · cases hfound
        obtain ⟨hrec, hsame⟩ := h.l2 store hl2 key _ hentry
        obtain ⟨record, hmem, hstores, hbody⟩ := h.source hrec
        exact ⟨hexchange, record, hmem, key, hkey, hsame ▸ hstores, hbody⟩

end

/-- The record is logged before its entries are put. -/
theorem snoc (hrec : record.Sound matchRoute) :
    TrafficInv matchRoute { q with stored := q.stored ++ [record] } where
  exchanges := h.exchanges
  stored := forall_mem_append.mpr ⟨h.stored, forall_mem_singleton.mpr hrec⟩
  l1 := fun l1 hl1 => (h.l1 l1 hl1).snoc record
  l2 := fun l2 hl2 key entry hentry =>
    ⟨(h.l2 l2 hl2 key entry hentry).1.snoc record, (h.l2 l2 hl2 key entry hentry).2⟩
  storeJobs := fun entry hmem => (h.storeJobs entry hmem).snoc record
  served := fun served hmem => (h.served served hmem).snoc record

theorem store (hrec : record.Sound matchRoute) (env : StoreEnvironment) :
    TrafficInv matchRoute (q.store hash record env) := by
  have hlog := h.snoc hrec
  have hentry : ∀ entry, record.context.Entry entry → Recorded (q.stored ++ [record]) entry :=
    fun entry hentry => ⟨record, by simp, hentry⟩
  have hraw : ∀ cache, (l1CacheStoreStage hash q.l1 record.context).1 = some cache →
      L1Recorded (q.stored ++ [record]) cache := by
    intro cache hcache
    rcases @l1CacheStoreStage_cases hash q.l1 record.context with
      hsame | ⟨l1, entry, hl1, hput, hstored⟩
    · exact hlog.l1 cache (hsame ▸ hcache)
    · rw [hstored] at hcache
      cases hcache
      exact (hlog.l1 l1 hl1).put (hentry entry hput) true
  refine ⟨h.exchanges, hlog.stored, fun cache hcache => ?_, hlog.l2, fun entry hmem => ?_,
    hlog.served⟩
  · rcases @l1VariantStoreStage_cases hash (l1CacheStoreStage hash q.l1 record.context).1
      record.context with
      hsame | ⟨l1, entry, hl1, hput, hstored⟩
    · exact hraw cache (hsame ▸ hcache)
    · have hcache := hstored.symm.trans hcache
      cases hcache
      exact (hraw l1 hl1).put (hentry entry hput) true
  · rcases mem_append.mp hmem with hmem | hmem
    · exact hlog.storeJobs entry hmem
    · refine hentry entry ?_
      rw [mem_toList] at hmem
      unfold enqueuedEntry at hmem
      split at hmem
      next key ttl hkey =>
        split at hmem
        · cases hmem
          exact ⟨rfl, key, l2StoreKey_storesUnder hkey, rfl⟩
        · cases hmem
      next => cases hmem

theorem respond (hexchange : exchange.Prepared matchRoute) (upstream : UpstreamResponse)
    (env : StoreEnvironment) : TrafficInv matchRoute (q.respond hash exchange upstream env) := by
  unfold CachedTraffic.respond
  split
  next response policy hresponse hpol =>
    split
    · exact h.store ⟨hexchange, hresponse⟩ env
    · exact h
  next => exact h

theorem runStoreJob {rest : List CacheEntry} (hjobs : q.storeJobs = entry :: rest) :
    TrafficInv matchRoute { q with storeJobs := rest, l2 := q.l2.map (l2Put · entry) } := by
  have hentry : Recorded q.stored entry := h.storeJobs entry (by simp [hjobs])
  refine ⟨h.exchanges, h.stored, h.l1, fun l2 hl2 key found hfound => ?_,
    fun other hmem => h.storeJobs other (by simp [hjobs, hmem]), h.served⟩
  obtain ⟨old, hold, rfl⟩ := map_eq_some_iff.mp hl2
  unfold l2Put at hfound
  split at hfound
  · exact h.l2 old hold key found hfound
  dsimp only at hfound
  split at hfound
  next hkey =>
    cases hfound
    exact ⟨hentry.encoded, hkey.symm⟩
  next => exact h.l2 old hold key found hfound

theorem runLookupJob (key : Text) (nowMs : Int64) :
    ∀ cache, executeLookupJob hash q.l1 q.l2 key nowMs = some cache →
      L1Recorded q.stored cache := by
  intro cache hcache
  unfold executeLookupJob at hcache
  split at hcache
  · exact h.l1 cache hcache
  rename_i l2 hl2
  split at hcache
  next entry hget =>
    obtain ⟨l1, hl1, rfl⟩ := map_eq_some_iff.mp hcache
    exact (h.l1 l1 hl1).putIfNewer (h.l2 l2 hl2 key entry (l2GetResult_hit hget)).1 true
  all_goals exact h.l1 cache hcache

theorem step {action : TrafficAction} {q' : CachedTraffic}
    (hstep : q.step matchRoute hash action = some q') : TrafficInv matchRoute q' := by
  cases action with
  | request id request =>
    cases hstep
    have hopen : TrafficInv matchRoute { q with
        exchanges := update q.exchanges id
          (some (openExchange matchRoute q.epochs q.admissions request).2) } :=
      h.setExchange id fun e he => by
        cases he
        exact openExchange_prepared matchRoute
    exact ⟨hopen.exchanges, h.stored, h.l1, h.l2, h.storeJobs, h.served⟩
  | lookup id stage =>
    obtain ⟨exchange, hid, rfl⟩ := map_eq_some_iff.mp hstep
    exact h.lookup (h.exchanges id exchange hid) id stage
  | enqueueLookup =>
    obtain ⟨exchange, hid, rfl⟩ := map_eq_some_iff.mp hstep
    exact ⟨h.exchanges, h.stored, h.l1, h.l2, h.storeJobs, h.served⟩
  | response id upstream env =>
    obtain ⟨exchange, hid, rfl⟩ := map_eq_some_iff.mp hstep
    have hcls : TrafficInv matchRoute { q with exchanges := update q.exchanges id none } :=
      h.setExchange id fun e he => by cases he
    exact hcls.respond (h.exchanges id exchange hid) upstream env
  | runStoreJob =>
    simp only [CachedTraffic.step] at hstep
    split at hstep
    · cases hstep
    next entry rest hjobs =>
      cases hstep
      exact h.runStoreJob hjobs
  | runLookupJob nowMs =>
    simp only [CachedTraffic.step] at hstep
    split at hstep
    · cases hstep
    next key rest hjobs =>
      cases hstep
      exact ⟨h.exchanges, h.stored, h.runLookupJob key nowMs, h.l2, h.storeJobs, h.served⟩
  | bumpEpoch =>
    cases hstep
    exact ⟨h.exchanges, h.stored, h.l1, h.l2, h.storeJobs, h.served⟩
  | removeL1 key =>
    cases hstep
    refine h.setL1 fun cache hcache => ?_
    obtain ⟨l1, hl1, rfl⟩ := map_eq_some_iff.mp hcache
    exact All.remove (h.l1 l1 hl1) key
  | removeL2 =>
    cases hstep
    refine ⟨h.exchanges, h.stored, h.l1, fun l2 hl2 key' entry hentry => ?_, h.storeJobs, h.served⟩
    obtain ⟨old, hold, rfl⟩ := map_eq_some_iff.mp hl2
    unfold l2Remove at hentry
    split at hentry
    · cases hentry
    · exact h.l2 old hold key' entry hentry
  | cleanupL1 request =>
    cases hstep
    refine h.setL1 fun cache hcache => ?_
    obtain ⟨l1, hl1, rfl⟩ := map_eq_some_iff.mp hcache
    exact All.cleanup (h.l1 l1 hl1) request

end TrafficInv

theorem trafficInv_init :
    TrafficInv matchRoute (trafficSystem matchRoute hash hasL1 hasL2 epochs).init where
  exchanges := fun _ _ hid => absurd hid (some_ne_none _).symm
  stored := fun _ hmem => absurd hmem not_mem_nil
  l1 := by
    intro l1 hl1
    cases hasL1 with
    | false => exact absurd hl1 (some_ne_none _).symm
    | true => exact Option.some.inj hl1 ▸ All.init
  l2 := by
    intro l2 hl2 key entry hentry
    cases hasL2 with
    | false => exact absurd hl2 (some_ne_none _).symm
    | true =>
      rw [← Option.some.inj hl2] at hentry
      exact absurd hentry (some_ne_none _).symm
  storeJobs := fun _ hmem => absurd hmem not_mem_nil
  served := fun _ hmem => absurd hmem not_mem_nil

theorem trafficInv_reachable (h : (trafficSystem matchRoute hash hasL1 hasL2 epochs).Reachable q) :
    TrafficInv matchRoute q :=
  h.invariant trafficInv_init fun _ _ _ hq _ hstep => hq.step hstep

/-! ## Opened exchanges -/

/-- A request has opened the exchange. -/
def Exchange.Opened (matchRoute : MatchRoute) (exchange : Exchange) : Prop :=
  ∃ epochs admissions request,
    exchange = (openExchange matchRoute epochs admissions request).2

/-- An exchange with a key was ready for it. -/
theorem Exchange.Opened.ready (h : exchange.Opened matchRoute)
    (hkey : exchange.context.HasKey key) : ∃ epochs policy epoch,
      KeysReady epochs policy exchange.request.scope epoch exchange.context := by
  obtain ⟨epochs, admissions, request, rfl⟩ := h
  simp only [openExchange] at hkey ⊢
  obtain ⟨passed, hadm, -⟩ := fieldVariantAdmissionStage_frame admissions
    (cacheKeyPrepareStage epochs request.scope
      (requestContext (onRequestHeaders matchRoute (some request.target) {}) request)).1
  rw [hadm] at hkey ⊢
  rcases cacheKeyPrepareStage_cases epochs request.scope
      (requestContext (onRequestHeaders matchRoute (some request.target) {}) request) with
    hnone | ⟨policy, epoch, raw, hready, -, hkeys⟩
  · rw [hnone] at hkey
    simp [CacheContext.HasKey] at hkey
  · rw [hkeys]
    exact ⟨epochs, policy, epoch, hready.matched, hready.stores, hready.isGet, hready.notBypassed,
      hready.inForce, hready.scopeReady⟩

/-- Every exchange of the state was opened by a request. -/
structure OpenedInv (matchRoute : MatchRoute) (q : CachedTraffic) : Prop where
  exchanges : ∀ id exchange, q.exchanges id = some exchange → exchange.Opened matchRoute
  stored : ∀ record ∈ q.stored, record.exchange.Opened matchRoute
  served : ∀ served ∈ q.served, served.exchange.Opened matchRoute

namespace OpenedInv

section

variable (h : OpenedInv matchRoute q) (hexchange : exchange.Opened matchRoute)

include h hexchange

theorem serve (id : Nat) (hit : Option CacheHit) :
    OpenedInv matchRoute (q.serve id exchange hit) := by
  cases hit with
  | none => exact h
  | some =>
    refine ⟨forall_update h.exchanges (fun e he => by cases he), h.stored, ?_⟩
    exact forall_mem_append.mpr ⟨h.served, forall_mem_singleton.mpr hexchange⟩

theorem lookup (id : Nat) (stage : LookupStage) :
    OpenedInv matchRoute (q.lookup hash id exchange stage) := by
  cases stage with
  | l1Cache | l1Variant => exact h.serve hexchange id _
  | l2Cache =>
    have hl1 : ∀ l1, OpenedInv matchRoute { q with l1 } :=
      fun _ => ⟨h.exchanges, h.stored, h.served⟩
    exact (hl1 _).serve hexchange id _

theorem respond (upstream : UpstreamResponse) (env : StoreEnvironment) :
    OpenedInv matchRoute (q.respond hash exchange upstream env) := by
  unfold CachedTraffic.respond
  split
  · split
    · refine ⟨h.exchanges, ?_, h.served⟩
      exact forall_mem_append.mpr ⟨h.stored, forall_mem_singleton.mpr hexchange⟩
    · exact h
  · exact h

end

theorem step (h : OpenedInv matchRoute q) {action : TrafficAction} {q' : CachedTraffic}
    (hstep : q.step matchRoute hash action = some q') : OpenedInv matchRoute q' := by
  cases action with
  | request _ request =>
    cases hstep
    refine ⟨forall_update h.exchanges fun e he => ?_, h.stored, h.served⟩
    cases he
    exact ⟨q.epochs, q.admissions, request, rfl⟩
  | lookup id stage =>
    obtain ⟨exchange, hid, rfl⟩ := map_eq_some_iff.mp hstep
    exact h.lookup (h.exchanges id exchange hid) id stage
  | response id upstream env =>
    obtain ⟨exchange, hid, rfl⟩ := map_eq_some_iff.mp hstep
    have hcls : OpenedInv matchRoute { q with exchanges := update q.exchanges id none } :=
      ⟨forall_update h.exchanges (fun e he => by cases he), h.stored, h.served⟩
    exact hcls.respond (h.exchanges id exchange hid) upstream env
  | enqueueLookup =>
    obtain ⟨exchange, hid, rfl⟩ := map_eq_some_iff.mp hstep
    exact ⟨h.exchanges, h.stored, h.served⟩
  | runStoreJob | runLookupJob =>
    simp only [CachedTraffic.step] at hstep
    split at hstep
    · cases hstep
    · cases hstep
      exact ⟨h.exchanges, h.stored, h.served⟩
  | _ =>
    cases hstep
    exact ⟨h.exchanges, h.stored, h.served⟩

end OpenedInv

theorem openedInv_reachable (h : (trafficSystem matchRoute hash hasL1 hasL2 epochs).Reachable q) :
    OpenedInv matchRoute q := by
  refine h.invariant ?_ fun _ _ _ hq _ hstep => hq.step hstep
  exact ⟨fun _ _ hid => absurd hid (some_ne_none _).symm,
    fun _ hmem => absurd hmem not_mem_nil, fun _ hmem => absurd hmem not_mem_nil⟩

end ByteTaper.ExtProc
