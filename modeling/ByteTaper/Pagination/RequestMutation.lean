import ByteTaper.FieldSelection.RequestTarget
import ByteTaper.Policy.RoutePolicyValidation

/-! # Pagination of requests

`pagination_query.cpp`, `pagination_decision.cpp` and `pagination_mutation.cpp`: the limit of a request
is read from its query, and a request without one, or with one that is too large, gets a new target. -/

namespace ByteTaper.Pagination

open FieldSelection Policy

/-! ## The query -/

/-- `isspace`. -/
def isSpace (c : Char) : Bool := c = ' ' || (9 ≤ c.toNat && c.toNat ≤ 13)

/-- `strtoul` of a text that it has to read to the end: white space, a sign and digits. A minus sign
    negates the number in its 64 bits. -/
def strtoul (text : Text) : Option Nat :=
  let signed := text.dropWhile isSpace
  let digits := match signed with
    | '+' :: digits => digits
    | '-' :: digits => digits
    | digits => digits
  if digits.isEmpty || !digits.all Char.isDigit then none
  else
    let number := Nat.ofDigitChars 10 digits 0
    some (if signed.head? = some '-' then (0x10000000000000000 - number) % 0x10000000000000000
      else number)

/-- `parse_uint32`, with its buffer of 16 bytes. -/
def parseUint32 (value : Text) : Option UInt32 :=
  if value.isEmpty || value.head? = some '-' || 16 ≤ value.length then none
  else
    match strtoul value with
    | none => none
    | some number => if number ≤ 0xFFFFFFFF then some number.toUInt32 else none

structure PaginationQueryResult where
  limit : Option UInt32 := none
  offset : Option UInt32 := none
  /-- The parameter that could not be read. -/
  errorParam : Option Text := none

/-- The loop of `parse_pagination_query`. The last limit counts, and the first error ends it. -/
def parsePaginationParams (policy : PaginationPolicy) :
    List QueryParamView → PaginationQueryResult → PaginationQueryResult
  | [], result => result
  | param :: rest, result =>
    match param.value with
    | none => parsePaginationParams policy rest result
    | some value =>
      if param.key = policy.limitParam then
        match parseUint32 value with
        | none => { result with errorParam := some (lit "limit") }
        | some limit => parsePaginationParams policy rest { result with limit := some limit }
      else if policy.mode = .limitOffset && param.key = policy.offsetParam then
        match parseUint32 value with
        | none => { result with errorParam := some (lit "offset") }
        | some offset => parsePaginationParams policy rest { result with offset := some offset }
      else parsePaginationParams policy rest result

def parsePaginationQuery (policy : PaginationPolicy) (rawQuery : Text) : PaginationQueryResult :=
  parsePaginationParams policy (parseQueryView rawQuery) {}

/-! ## The decision -/

structure PaginationDecision where
  shouldApplyDefaultLimit : Bool := false
  shouldCapLimit : Bool := false
  limitToApply : UInt32 := 0
  reason : Option Text := none

def makePaginationDecision (policy : PaginationPolicy) (query : PaginationQueryResult) :
    PaginationDecision :=
  if !policy.enabled || !policy.upstreamSupportsPagination || query.errorParam.isSome then {}
  else
    match query.limit with
    | some limit =>
      if 0 < policy.maxLimit && policy.maxLimit < limit then
        { shouldCapLimit := true, limitToApply := policy.maxLimit
          reason := some (lit "limit_exceeds_max") }
      else { limitToApply := limit, reason := some (lit "limit_valid") }
    | none =>
      { shouldApplyDefaultLimit := true, limitToApply := policy.defaultLimit
        reason := some (lit "missing_limit") }

/-! ## The new target -/

def kRequestMutationPathSize : Nat := 2048

/-- A limit as a parameter. -/
def limitSegment (limitParam : Text) (limit : UInt32) : Text :=
  limitParam ++ '=' :: Nat.toDigits 10 limit.toNat

/-- The segment sets the parameter. -/
def setsParam (limitParam segment : Text) : Bool :=
  segment.contains '=' && segment.takeWhile (· != '=') == limitParam

/-- Replace the first segment that sets the limit. -/
def capSegments (limitParam : Text) (limit : UInt32) : List Text → Option (List Text)
  | [] => none
  | segment :: rest =>
    if setsParam limitParam segment then some (limitSegment limitParam limit :: rest)
    else (capSegments limitParam limit rest).map (segment :: ·)

/-- `apply_pagination_mutation` for a decision to mutate; the target has to fit its buffer. -/
def applyPaginationMutation (rawPath rawQuery : Text) (decision : PaginationDecision)
    (limitParam : Text) : Option Text :=
  let query :=
    if decision.shouldCapLimit then
      (capSegments limitParam decision.limitToApply (rawQuery.splitOn '&')).map
        ['&'].intercalate
    else if decision.shouldApplyDefaultLimit then
      some (if rawQuery.isEmpty then limitSegment limitParam decision.limitToApply
        else rawQuery ++ '&' :: limitSegment limitParam decision.limitToApply)
    else none
  match query with
  | none => none
  | some query =>
    let target := rawPath ++ '?' :: query
    if target.length < kRequestMutationPathSize then some target else none

/-- The new target of a request to a route, if it gets one: what
    `pagination_request_mutation_stage` writes. -/
def paginatedTarget (policy : PaginationPolicy) (rawPath rawQuery : Text) : Option Text :=
  if !policy.enabled || (validatePaginationPolicy policy).isSome then none
  else
    applyPaginationMutation rawPath rawQuery
      (makePaginationDecision policy (parsePaginationQuery policy rawQuery)) policy.limitParam

/-- The pagination is off, cannot read the query, or is content with its limit. -/
def LimitAccepted (policy : PaginationPolicy) (rawQuery : Text) : Prop :=
  policy.enabled = false ∨ (validatePaginationPolicy policy).isSome ∨
    policy.upstreamSupportsPagination = false ∨
    (parsePaginationQuery policy rawQuery).errorParam.isSome ∨
    ∃ limit, (parsePaginationQuery policy rawQuery).limit = some limit ∧
      ¬(0 < policy.maxLimit ∧ policy.maxLimit < limit)

theorem LimitAccepted.paginatedTarget {policy : PaginationPolicy} {rawQuery : Text}
    (h : LimitAccepted policy rawQuery) (rawPath : Text) :
    paginatedTarget policy rawPath rawQuery = none := by
  rw [Pagination.paginatedTarget]
  split
  · rfl
  rename_i hon
  have hidle : let decision := makePaginationDecision policy (parsePaginationQuery policy rawQuery)
      decision.shouldCapLimit = false ∧ decision.shouldApplyDefaultLimit = false := by
    rcases h with h | h | h | h | ⟨limit, hlimit, h⟩
    · simp [h] at hon
    · simp [h] at hon
    · simp [makePaginationDecision, h]
    · simp [makePaginationDecision, h]
    · unfold makePaginationDecision
      split
      · exact ⟨rfl, rfl⟩
      · simp [hlimit, h]
  simp [applyPaginationMutation, hidle.1, hidle.2]

end ByteTaper.Pagination
