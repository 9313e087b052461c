import ByteTaper.Library.Decimal
import ByteTaper.Library.Separated
import ByteTaper.Policy.RoutePolicy

/-! # Cache keys

`cache_key.cpp`: the text under which a response is cached. It joins the parts of the request with
bars, and inside two of the parts names with commas; none of the parts is escaped. -/

namespace ByteTaper.Cache

open Policy List Option

/-- A name and the hash of a value; either pointer may be null. -/
structure CacheVaryKeyPart where
  name : Option Text
  valueHash : Option Text

/-- The input of `build_cache_key`. Pointers that may be null are `Option`s; a null array of
    `selected_field_count` names reads as that many empty names. -/
structure CacheKeyInput where
  method : HttpMethod := .get
  routeId : Option Text := none
  path : Option Text := none
  query : Option Text := none
  selectedFields : List FieldName := []
  policyVersion : Option Text := none
  routeCacheEpoch : UInt64 := 0
  routeCacheEpochReady : Bool := false
  varyHeaders : List CacheVaryKeyPart := []
  privateCache : Bool := false
  authScope : Option Text := none
  variant : Bool := false

/-! ## Sorted field names -/

/-- The inner loop of the selection sort: the least of the names. `strncmp` compares whole names, as
    they fit their buffers. -/
def leastField (least : FieldName) : List FieldName → FieldName
  | [] => least
  | name :: rest => leastField (if name.val < least.val then name else least) rest

/-- The selection sort over `n` positions: swap the least name to the front, then sort the rest. -/
def sortFields : Nat → List FieldName → List FieldName
  | 0, names => names
  | _ + 1, [] => []
  | n + 1, name :: rest =>
    let least := leastField name rest
    least :: sortFields n (if least = name then rest else rest.replace least name)

/-- Drop every name that equals the one before it. -/
def dedupAfter (previous : FieldName) : List FieldName → List FieldName
  | [] => []
  | name :: rest =>
    if name = previous then dedupAfter name rest else name :: dedupAfter name rest

def dedupFields : List FieldName → List FieldName
  | [] => []
  | name :: rest => name :: dedupAfter name rest

/-- The field names that reach the key: the first sixteen, sorted, each once. -/
def keyFields (input : CacheKeyInput) : List FieldName :=
  let names := input.selectedFields.take kMaxFields
  dedupFields (sortFields names.length names)

/-! ## Building the key -/

/-- The bytes written so far and the room left in the buffer. -/
structure KeyBuffer where
  text : Text
  remaining : Nat

namespace KeyBuffer

variable (buffer : KeyBuffer)

def keyAppend (s : Text) : Option KeyBuffer :=
  if buffer.remaining < s.length then none
  else some { text := buffer.text ++ s, remaining := buffer.remaining - s.length }

/-- Field names with commas between them. -/
def appendFields (buffer : KeyBuffer) : List FieldName → Option KeyBuffer
  | [] => some buffer
  | [name] => buffer.keyAppend name.val
  | name :: rest => do
      let buffer ← buffer.keyAppend name.val
      let buffer ← buffer.keyAppend [',']
      buffer.appendFields rest

def appendVaryHeader (header : CacheVaryKeyPart) : Option KeyBuffer := do
  let name ← header.name
  let valueHash ← header.valueHash
  let buffer ← buffer.keyAppend name
  let buffer ← buffer.keyAppend ['=']
  buffer.keyAppend valueHash

def appendVaryHeaders (buffer : KeyBuffer) : List CacheVaryKeyPart → Option KeyBuffer
  | [] => some buffer
  | [header] => buffer.appendVaryHeader header
  | header :: rest => do
      let buffer ← buffer.appendVaryHeader header
      let buffer ← buffer.keyAppend [',']
      buffer.appendVaryHeaders rest

/-- The `|vary:` part, if there are vary headers. -/
def appendVary (headers : List CacheVaryKeyPart) : Option KeyBuffer :=
  if headers = [] then some buffer
  else (buffer.keyAppend (lit "|vary:")).bind fun buffer => buffer.appendVaryHeaders headers

/-- The `|scope:` part of a private key, which needs a scope. `snprintf` wants room for a
    terminator of its own. -/
def appendScope (privateCache : Bool) (authScope : Text) : Option KeyBuffer :=
  if privateCache then
    if authScope = [] then none
    else if buffer.remaining ≤ (lit "|scope:" ++ authScope).length then none
    else buffer.keyAppend (lit "|scope:" ++ authScope)
  else some buffer

end KeyBuffer

/-- The key, if it fits a buffer of `outSize` bytes. -/
def buildCacheKey (input : CacheKeyInput) (outSize : Nat) : Option Text := do
  let routeId ← input.routeId
  let path ← input.path
  if input.method = .get ∧ outSize ≠ 0 then
    let buffer : KeyBuffer := { text := [], remaining := outSize - 1 }
    let buffer ← buffer.keyAppend (if input.variant then lit "var:" else [])
    let buffer ← buffer.keyAppend (lit "GET|")
    let buffer ← buffer.keyAppend routeId
    let buffer ← buffer.keyAppend ['|']
    let buffer ← buffer.keyAppend
      (if input.routeCacheEpochReady then
        lit "epoch:" ++ Nat.toDigits 10 input.routeCacheEpoch.toNat ++ ['|']
      else [])
    let buffer ← buffer.keyAppend path
    let buffer ← buffer.keyAppend ['|']
    let buffer ← buffer.keyAppend (input.query.getD [])
    let buffer ← buffer.keyAppend ['|']
    let buffer ← buffer.appendFields (keyFields input)
    let buffer ← buffer.keyAppend ['|']
    let buffer ← buffer.keyAppend (input.policyVersion.getD [])
    let buffer ← buffer.appendVary input.varyHeaders
    let buffer ← buffer.appendScope input.privateCache (input.authScope.getD [])
    return buffer.text
  else none

/-! ## The query without the selection -/

/-- The parameters that are kept. A parameter `fields` without an equals sign is not taken out. -/
def keptParams (query : Text) : List Text :=
  (query.splitOn '&').filter fun param => !(lit "fields=").isPrefixOf param && !param.isEmpty

/-- `sanitize_query_strip_fields_param`: what is in the buffer of `outSize` bytes. A query that does
    not fit leaves it empty. -/
def sanitizeQueryStripFieldsParam (query : Text) (outSize : Nat) : Text :=
  let leading := if query.head? = some '?' then ['?'] else []
  let kept := keptParams (query.drop leading.length)
  let text := ['&'].intercalate kept
  if kept = [] then []
  else if outSize - 1 - leading.length < text.length then []
  else leading ++ text

/-! ## The text of a key -/

def CacheVaryKeyPart.text (header : CacheVaryKeyPart) : Text :=
  header.name.getD [] ++ '=' :: header.valueHash.getD []

namespace CacheKeyInput

variable (input : CacheKeyInput)

def epochPart : Text := lit "epoch:" ++ Nat.toDigits 10 input.routeCacheEpoch.toNat

def fieldsPart : Text := [','].intercalate ((keyFields input).map (·.val))

def varyPart : Text := lit "vary:" ++ [','].intercalate (input.varyHeaders.map (·.text))

def scopePart : Text := lit "scope:" ++ input.authScope.getD []

/-- The parts of the key, in their order. -/
def keyParts : List Text :=
  [input.routeId.getD []] ++ (if input.routeCacheEpochReady then [input.epochPart] else []) ++
    [input.path.getD [], input.query.getD [], input.fieldsPart, input.policyVersion.getD []] ++
    (if input.varyHeaders = [] then [] else [input.varyPart]) ++
    (if input.privateCache then [input.scopePart] else [])

def keyText : Text :=
  (if input.variant then lit "var:" else []) ++ lit "GET|" ++ ['|'].intercalate input.keyParts

/-- What `build_cache_key` needs besides room. -/
structure Complete : Prop where
  method : input.method = .get
  routeId : input.routeId.isSome
  path : input.path.isSome
  vary : ∀ header ∈ input.varyHeaders, header.name.isSome ∧ header.valueHash.isSome
  scope : input.privateCache = true → input.authScope.getD [] ≠ []

end CacheKeyInput

namespace KeyBuffer

section

variable (buffer : KeyBuffer)

/-- Two writes are one write of both texts. -/
theorem keyAppend_bind (s t : Text) :
    (buffer.keyAppend s).bind (fun b => b.keyAppend t) = buffer.keyAppend (s ++ t) := by
  unfold keyAppend
  by_cases hs : buffer.remaining < s.length
  · rw [if_pos hs, if_pos (by simp; omega)]
    rfl
  · rw [if_neg hs, bind_some]
    by_cases ht : buffer.remaining - s.length < t.length
    · rw [if_pos ht, if_pos (by simp; omega)]
    · rw [if_neg ht, if_neg (by simp; omega)]
      simp [Nat.sub_sub]

theorem keyAppend_bind_bind {β : Type} (s t : Text) (f : KeyBuffer → Option β) :
    (buffer.keyAppend s).bind (fun b => (b.keyAppend t).bind f) =
      (buffer.keyAppend (s ++ t)).bind f := by
  rw [← keyAppend_bind, bind_assoc]

theorem keyAppend_nil : buffer.keyAppend [] = some buffer := by
  simp [keyAppend]

theorem appendFields_eq (names : List FieldName) :
    buffer.appendFields names = buffer.keyAppend ([','].intercalate (names.map (·.val))) := by
  induction names generalizing buffer with
  | nil => exact (keyAppend_nil buffer).symm
  | cons _ rest ih =>
    cases rest with
    | nil => simp [appendFields]
    | cons =>
      simp only [appendFields, bind_eq_bind, map_cons, intercalate_cons_cons]
      simp only [ih, map_cons, keyAppend_bind]
      rw [← append_assoc]

theorem appendVaryHeader_eq (header : CacheVaryKeyPart) : buffer.appendVaryHeader header =
      if header.name.isSome ∧ header.valueHash.isSome then buffer.keyAppend header.text
      else none := by
  unfold appendVaryHeader
  cases hname : header.name with
  | none => simp
  | some =>
    cases hhash : header.valueHash with
    | none => simp
    | some =>
      simp [keyAppend_bind, CacheVaryKeyPart.text, hname, hhash]

theorem appendVaryHeaders_eq (headers : List CacheVaryKeyPart) : buffer.appendVaryHeaders headers =
      if ∀ header ∈ headers, header.name.isSome ∧ header.valueHash.isSome then
        buffer.keyAppend ([','].intercalate (headers.map (·.text)))
      else none := by
  induction headers generalizing buffer with
  | nil => simp [appendVaryHeaders, keyAppend_nil]
  | cons header rest ih =>
    cases rest with
    | nil => simp [appendVaryHeaders, appendVaryHeader_eq]
    | cons next rest =>
      simp only [appendVaryHeaders, bind_eq_bind, appendVaryHeader_eq, ih,
        forall_mem_cons (a := header)]
      by_cases hhead : header.name.isSome ∧ header.valueHash.isSome
      · by_cases hrest : ∀ h ∈ next :: rest, h.name.isSome ∧ h.valueHash.isSome
        · simp only [if_pos hhead, if_pos hrest, if_pos (And.intro hhead hrest), keyAppend_bind,
            map_cons, intercalate_cons_cons]
          rw [append_assoc]
        · simp only [if_neg hrest, if_neg (fun h => hrest (And.right h))]
          simp
      · rw [if_neg hhead, if_neg fun h => hhead h.1]
        rfl

theorem appendVary_eq {headers}
    (h : ∀ header ∈ headers, header.name.isSome ∧ header.valueHash.isSome) :
    buffer.appendVary headers = buffer.keyAppend
      (if headers = [] then [] else lit "|vary:" ++ [','].intercalate (headers.map (·.text))) := by
  unfold appendVary
  split
  · exact (keyAppend_nil buffer).symm
  · simp [appendVaryHeaders_eq, if_pos h, keyAppend_bind]

end

end KeyBuffer

/-- The text before the scope, as it is written. -/
def CacheKeyInput.headText (input : CacheKeyInput) : Text :=
  (if input.variant then lit "var:" else []) ++ (lit "GET|" ++ (input.routeId.getD [] ++ (['|'] ++
    ((if input.routeCacheEpochReady then input.epochPart ++ ['|'] else []) ++
      (input.path.getD [] ++ (['|'] ++ (input.query.getD [] ++ (['|'] ++ (input.fieldsPart ++
        (['|'] ++ (input.policyVersion.getD [] ++
          if input.varyHeaders = [] then [] else ['|'] ++ input.varyPart)))))))))))

open CacheKeyInput

theorem keyText_eq (input : CacheKeyInput) : input.keyText =
      input.headText ++ if input.privateCache then ['|'] ++ input.scopePart else [] := by
  unfold keyText headText keyParts
  cases input.privateCache <;> cases input.routeCacheEpochReady <;>
    by_cases hvary : input.varyHeaders = [] <;>
      simp [hvary, intercalate_cons_cons]

theorem lit_vary : lit "|vary:" = ['|'] ++ lit "vary:" := by simp [lit]

theorem lit_scope : lit "|scope:" = ['|'] ++ lit "scope:" := by simp [lit]

variable {input : CacheKeyInput}

open KeyBuffer

/-- The writes before the scope are one write. -/
theorem buildCacheKey_eq (h : input.Complete) (n : Nat) : buildCacheKey input n = if n = 0 then none
      else (keyAppend { text := [], remaining := n - 1 } input.headText).bind fun b =>
        (b.appendScope input.privateCache (input.authScope.getD [])).map (·.text) := by
  obtain ⟨routeId, hroute⟩ := isSome_iff_exists.mp h.routeId
  obtain ⟨path, hpath⟩ := isSome_iff_exists.mp h.path
  unfold buildCacheKey
  simp only [h.method, hroute, hpath, bind_eq_bind, appendFields_eq,
    appendVary_eq _ h.vary, keyAppend_bind_bind, bind_some, true_and,
    ite_not, map_eq_bind]
  simp only [headText, epochPart, fieldsPart,
    varyPart, hroute, hpath, lit_vary, getD_some, append_assoc]
  rfl

theorem buildCacheKey_of_complete (h : input.Complete) (n : Nat) : buildCacheKey input n =
      if input.keyText.length + (if input.privateCache then 1 else 0) < n then some input.keyText
      else none := by
  rw [buildCacheKey_eq h, keyText_eq]
  by_cases hn : n = 0
  · rw [if_pos hn, if_neg (by omega)]
  rw [if_neg hn]
  cases hp : input.privateCache with
  | false =>
    simp only [appendScope, keyAppend]
    split <;> simp <;> omega
  | true =>
    have hscope := h.scope hp
    simp only [appendScope, keyAppend, if_true, if_neg hscope, scopePart, lit_scope, append_assoc]
    split
    · rw [if_neg (by simp only [length_append]; omega)]
      rfl
    next hroom =>
      simp only [bind_some]
      split
      next hscope' =>
        rw [if_neg (by simp only [length_append] at hscope' ⊢; omega)]
        rfl
      next hscope' =>
        rw [if_neg (by omega), if_pos (by simp only [length_append] at hscope' ⊢; omega)]
        simp

theorem appendVary_complete {buffer buffer' : KeyBuffer} {headers}
    (h : buffer.appendVary headers = some buffer') :
    ∀ header ∈ headers, header.name.isSome ∧ header.valueHash.isSome := by
  unfold appendVary at h
  split at h
  next hnil => simp [hnil]
  obtain ⟨b, -, h⟩ := bind_eq_some_iff.mp h
  rw [appendVaryHeaders_eq] at h
  split at h
  next hall => exact hall
  next => cases h

theorem buildCacheKey_complete {n : Nat} {k : Text} (h : buildCacheKey input n = some k) :
    input.Complete := by
  unfold buildCacheKey at h
  simp only [bind_eq_bind, appendFields_eq, keyAppend_bind_bind] at h
  obtain ⟨routeId, hroute, h⟩ := bind_eq_some_iff.mp h
  obtain ⟨path, hpath, h⟩ := bind_eq_some_iff.mp h
  split at h
  next hguard =>
    obtain ⟨b, -, h⟩ := bind_eq_some_iff.mp h
    obtain ⟨b', hvary, h⟩ := bind_eq_some_iff.mp h
    obtain ⟨b'', hscope, -⟩ := bind_eq_some_iff.mp h
    refine ⟨hguard.1, by simp [hroute], by simp [hpath], appendVary_complete hvary, ?_⟩
    intro hpriv hempty
    simp [appendScope, hpriv, hempty] at hscope
  next => cases h

/-- `build_cache_key` succeeds on complete inputs whose key fits, and writes `keyText`. -/
theorem buildCacheKey_eq_some_iff {n : Nat} {k : Text} : buildCacheKey input n = some k ↔
      input.Complete ∧ k = input.keyText ∧
        k.length + (if input.privateCache then 1 else 0) < n := by
  constructor
  · intro h
    have hcompl := buildCacheKey_complete h
    rw [buildCacheKey_of_complete hcompl, ite_none_right_eq_some] at h
    obtain ⟨hroom, hk⟩ := h
    cases hk
    exact ⟨hcompl, rfl, hroom⟩
  · rintro ⟨hcompl, rfl, hroom⟩
    rw [buildCacheKey_of_complete hcompl, if_pos hroom]

end ByteTaper.Cache
