import ByteTaper.Cache.CacheSafety
import ByteTaper.ExtProc.ResponseBody
import ByteTaper.Stages.CacheLayers

/-! # The headers of a request

`header_view.cpp`, and the part of `grpc_server.cpp` that makes the cache scope of a request from its
headers. -/

namespace ByteTaper.ExtProc

open Cache Policy Stages List
open TaperQuery (formatHex)

/-- A header; either of the two values may be empty. -/
structure HeaderValue where
  key : Text
  value : Text := []
  rawValue : Text := []
deriving DecidableEq

/-- The value that is read. -/
def HeaderValue.val (header : HeaderValue) : Text :=
  if header.rawValue.isEmpty then header.value else header.rawValue

structure RequestHeaderView where
  path : Option Text := none
  method : Option Text := none
  acceptEncoding : Option Text := none
  authorization : Option Text := none
  cookie : Option Text := none

variable (view : RequestHeaderView) (header : HeaderValue)

/-- One turn of the loop of `scan_request_headers`. -/
def RequestHeaderView.scan : RequestHeaderView :=
  if header.key = lit ":path" then { view with path := some header.val }
  else if header.key = lit ":method" then { view with method := some header.val }
  else if header.key = lit "accept-encoding" then { view with acceptEncoding := some header.val }
  else if header.key = lit "authorization" then { view with authorization := some header.val }
  else if header.key = lit "cookie" then { view with cookie := some header.val }
  else view

variable (headers : List HeaderValue)

def scanRequestHeaders : RequestHeaderView :=
  headers.foldl RequestHeaderView.scan {}

/-- `ascii_case_insensitive_equal`. -/
def sameHeaderName (a b : Text) : Bool := a.map asciiLower == b.map asciiLower

/-- The value of the first header with the name. -/
def readHeaderValueCaseInsensitive (headerName : Text) : Option Text :=
  (headers.find? fun header => sameHeaderName header.key headerName).map (·.val)

/-! ## The cache scope -/

def requestHasAuthorization : Bool :=
  view.authorization.any (!·.isEmpty)

def requestHasCookie : Bool := view.cookie.any (!·.isEmpty)

def kPrivateCacheScopeHashSize : Nat := 32

/-- `prepare_cache_auth_context`, on a route. -/
def prepareCacheAuthContext (view : RequestHeaderView) (policy : RoutePolicy) : CacheScope :=
  let bypass := cacheAuthBypass (requestHasAuthorization view) (requestHasCookie view)
    policy.cache.privateCache
  if bypass || !policy.cache.privateCache then { cacheAuthBypass := bypass }
  else if policy.cache.authScopeHeader.isEmpty then { cacheAuthBypass := true }
  else
    match readHeaderValueCaseInsensitive headers policy.cache.authScopeHeader with
    | none => { cacheAuthBypass := true }
    | some scope =>
      match buildPrivateCacheScopeHash scope kPrivateCacheScopeHashSize with
      | none => { cacheAuthBypass := true }
      | some hash => { privateCacheScope := some hash }

def kMaxCacheVaryHeaderNameLen : Nat := 64

def kPreparedVaryHashLen : Nat := 17

/-- What is hashed for a vary header: its value, or a stable sentinel. -/
def varyValue : Option Text → Text
  | none => lit "<missing>"
  | some [] => lit "<empty>"
  | some value => value

/-- `prepare_cache_vary_context`. -/
def prepareCacheVaryContext (policy : RoutePolicy) : List (Text × Text) :=
  policy.cache.varyHeaders.map fun name =>
    (name.take (kMaxCacheVaryHeaderNameLen - 1),
      (buildCacheVaryValueHash (varyValue (readHeaderValueCaseInsensitive headers name))
        kPreparedVaryHashLen).getD [])

/-- The scope of a request on the route that it is matched to. -/
def cacheScope : Option RoutePolicy → CacheScope
  | none => {}
  | some policy =>
    { prepareCacheAuthContext headers (scanRequestHeaders headers) policy with
      cacheVary := prepareCacheVaryContext headers policy }

/-! ## What the scope says -/

theorem varyValue_ne_nil (value : Option Text) : varyValue value ≠ [] := by
  rcases value with _ | _ | ⟨c, rest⟩
  · decide +kernel
  · decide +kernel
  · exact cons_ne_nil c rest

/-- Two header values are hashed as one text if they are the same, or one of them is a sentinel that
    stands for the other. -/
theorem varyValue_eq_iff {value other : Option Text} :
    varyValue value = varyValue other ↔ value = other ∨
      (value = none ∧ other = some (lit "<missing>")) ∨
      (value = some (lit "<missing>") ∧ other = none) ∨
      (value = some [] ∧ other = some (lit "<empty>")) ∨
      (value = some (lit "<empty>") ∧ other = some []) := by
  have hmiss : lit "<missing>" ≠ [] := varyValue_ne_nil none
  have hempty : lit "<empty>" ≠ [] := varyValue_ne_nil (some [])
  have hsent : lit "<missing>" ≠ lit "<empty>" := by simp [lit]
  rcases value with _ | _ | ⟨c, rest⟩ <;> rcases other with _ | _ | ⟨d, rest'⟩ <;>
    simp [varyValue, hsent, hmiss.symm, hempty.symm, hsent.symm, eq_comm]

theorem prepareCacheVaryContext_eq (headers : List HeaderValue) (policy : RoutePolicy) :
    prepareCacheVaryContext headers policy = policy.cache.varyHeaders.map fun name =>
      (name.take (kMaxCacheVaryHeaderNameLen - 1), formatHex
        (valueHash (varyValue (readHeaderValueCaseInsensitive headers name)))) := by
  unfold prepareCacheVaryContext buildCacheVaryValueHash
  simp [hashedValue_eq (varyValue_ne_nil _) (Nat.le_refl 17), kPreparedVaryHashLen]

variable {headers : List HeaderValue}

/-- A request without a bypass, on a route that is not private, has neither of the two headers as far
    as the scan sees them. -/
theorem cacheScope_of_shared {policy : RoutePolicy} (hpriv : policy.cache.privateCache = false)
    (h : (cacheScope headers (some policy)).cacheAuthBypass = false) :
    requestHasAuthorization (scanRequestHeaders headers) = false ∧
      requestHasCookie (scanRequestHeaders headers) = false := by
  simpa [cacheScope, prepareCacheAuthContext, hpriv, cacheAuthBypass] using h

/-! ## Headers that occur once -/

/-- The headers have one with the name and the value. -/
def CarriesHeader (headers : List HeaderValue) (name value : Text) : Prop :=
  ∃ header ∈ headers, sameHeaderName header.key name = true ∧ header.val = value

/-- Every name occurs at most once. -/
def UniqueNames (headers : List HeaderValue) : Prop :=
  headers.Pairwise fun header other => sameHeaderName header.key other.key = false

theorem sameHeaderName_iff {a b : Text} :
    sameHeaderName a b ↔ a.map asciiLower = b.map asciiLower := beq_iff_eq

theorem UniqueNames.eq (h : UniqueNames headers) {header other : HeaderValue}
    (hmem : header ∈ headers) (hmem' : other ∈ headers)
    (hname : sameHeaderName header.key other.key) : header = other := by
  by_contra hne
  have hsymm : Std.Symm fun header other : HeaderValue =>
      sameHeaderName header.key other.key = false := by
    refine ⟨fun x y hxy => ?_⟩
    rw [Bool.eq_false_iff, ne_eq, sameHeaderName_iff] at hxy ⊢
    exact fun heq => hxy heq.symm
  have hapart := List.Pairwise.forall h hmem hmem' hne
  rw [hname] at hapart
  cases hapart

/-- The value that is read is the one that the headers have. -/
theorem UniqueNames.read_eq_some_iff (h : UniqueNames headers) {name value : Text} :
    readHeaderValueCaseInsensitive headers name = some value ↔ CarriesHeader headers name value := by
  rw [readHeaderValueCaseInsensitive, Option.map_eq_some_iff]
  constructor
  · rintro ⟨header, hfind, rfl⟩
    have hfound := find?_some hfind
    exact ⟨header, mem_of_find?_eq_some hfind, hfound, rfl⟩
  · rintro ⟨header, hmem, hname, rfl⟩
    have hsome : (headers.find? fun header => sameHeaderName header.key name).isSome :=
      find?_isSome.mpr ⟨header, hmem, hname⟩
    obtain ⟨found, hfind⟩ := Option.isSome_iff_exists.mp hsome
    have hfound := find?_some hfind
    have hsame : sameHeaderName found.key header.key := by
      rw [sameHeaderName_iff] at hname hfound ⊢
      rw [hfound, hname]
    exact ⟨found, hfind, by rw [h.eq (mem_of_find?_eq_some hfind) hmem hsame]⟩

theorem RequestHeaderView.scan_authorization :
    (view.scan header).authorization =
      if header.key = lit "authorization" then some header.val else view.authorization := by
  have hpath : lit ":path" ≠ lit "authorization" := by simp [lit]
  have hmeth : lit ":method" ≠ lit "authorization" := by simp [lit]
  have hencoding : lit "accept-encoding" ≠ lit "authorization" := by simp [lit]
  unfold RequestHeaderView.scan
  split_ifs <;> simp_all

theorem RequestHeaderView.scan_cookie :
    (view.scan header).cookie =
      if header.key = lit "cookie" then some header.val else view.cookie := by
  have hpath : lit ":path" ≠ lit "cookie" := by simp [lit]
  have hmeth : lit ":method" ≠ lit "cookie" := by simp [lit]
  have hencoding : lit "accept-encoding" ≠ lit "cookie" := by simp [lit]
  have hauth : lit "authorization" ≠ lit "cookie" := by simp [lit]
  unfold RequestHeaderView.scan
  split_ifs <;> simp_all

/-- A field of the view holds the value of the last header with its key. -/
theorem scanRequestHeaders_eq {field : RequestHeaderView → Option Text} {key : Text}
    (hscan : ∀ view header, field (RequestHeaderView.scan view header) =
      if header.key = key then some header.val else field view)
    (hnone : field {} = none) (headers : List HeaderValue) :
    field (scanRequestHeaders headers) =
      (headers.reverse.find? fun header => header.key = key).map (·.val) := by
  unfold scanRequestHeaders
  induction headers using List.reverseRecOn with
  | nil => simpa using hnone
  | append_singleton _ header ih =>
    rw [foldl_concat, hscan, ih, reverse_append]
    by_cases hkey : header.key = key <;> simp [hkey]

end ByteTaper.ExtProc
