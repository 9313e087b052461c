import ByteTaper.JsonTransform.FlatJson
import ByteTaper.Pagination.RequestMutation
import ByteTaper.TaperQuery.RoutePolicyIr
import Mathlib.Data.List.DropRight

/-! # Compression

`accept_encoding.cpp` and `compression_decision.cpp`: the algorithm that a response is to be compressed
with. The parameters of the encodings that a client lists are cut off, `q=0` among them. -/

namespace ByteTaper.Compression

open List Policy
open JsonTransform (cString)
open Pagination (isSpace)
open TaperQuery (toLower toLowercase)

/-! ## The client -/

structure AcceptEncoding where
  supportsGzip : Bool := false
  supportsBr : Bool := false
  supportsZstd : Bool := false
  supportsDeflate : Bool := false
  supportsIdentity : Bool := false

def trim (s : Text) : Text := (s.dropWhile isSpace).rdropWhile isSpace

/-- A token without its parameters. -/
def tokenName (tok : Text) : Text := trim (tok.takeWhile (· ≠ ';'))

def applyToken (out : AcceptEncoding) (tok : Text) : AcceptEncoding :=
  let tok := tokenName tok
  if tok.isEmpty || 32 ≤ tok.length then out
  else
    let buf := toLowercase (cString tok)
    if buf = lit "gzip" then { out with supportsGzip := true }
    else if buf = lit "br" then { out with supportsBr := true }
    else if buf = lit "zstd" then { out with supportsZstd := true }
    else if buf = lit "deflate" then { out with supportsDeflate := true }
    else if buf = lit "identity" then { out with supportsIdentity := true }
    else out

def parseAcceptEncoding (header : Text) : AcceptEncoding :=
  (header.splitOn ',').foldl applyToken {}

def AcceptEncoding.supports (client : AcceptEncoding) : CompressionAlgorithm → Bool
  | .brotli => client.supportsBr
  | .zstd => client.supportsZstd
  | .gzip => client.supportsGzip
  | .none => false

/-! ## The decision -/

inductive CompressionSkipReason where
  | none | policyDisabled | noClientSupport | alreadyEncoded | contentTypeNotEligible | non2xxStatus
  | belowMinimum | sizeUnknown

structure CompressionDecisionInput where
  compressionPolicy : Option CompressionPolicy := none
  clientEncoding : AcceptEncoding := {}
  alreadyEncoded : Bool := false
  statusCode : UInt16 := 0
  contentType : Text := []
  bodyLen : Nat := 0
  bodySizeKnown : Bool := false

structure CompressionDecision where
  candidate : Bool := false
  skipReason : CompressionSkipReason := .none
  selectedAlgorithmHint : CompressionAlgorithm := .none

section

variable (policy : CompressionPolicy) (client : AcceptEncoding) (input : CompressionDecisionInput)

def isContentTypeEligible (contentType : Text) : Bool :=
  let base := ((contentType.dropWhile isSpace).takeWhile (· ≠ ';')).rdropWhile isSpace
  !base.isEmpty && (policy.eligibleContentTypes.isEmpty ||
    policy.eligibleContentTypes.any (toLowercase base = toLowercase ·))

/-- The first check of `make_compression_decision` that fails. -/
def skipReason? : Option CompressionSkipReason :=
  if !policy.enabled then some .policyDisabled
  else if !client.supportsGzip && !client.supportsBr && !client.supportsZstd then
    some .noClientSupport
  else if input.statusCode < 200 || 300 ≤ input.statusCode then some .non2xxStatus
  else if input.alreadyEncoded then some .alreadyEncoded
  else if !isContentTypeEligible policy input.contentType then some .contentTypeNotEligible
  else if !input.bodySizeKnown then some .sizeUnknown
  else if 0 < policy.minSizeBytes && input.bodyLen < policy.minSizeBytes.toNat then some .belowMinimum
  else none

def pickAlgorithm : CompressionAlgorithm :=
  match policy.preferredAlgorithms.find? client.supports with
  | some alg => alg
  | none =>
    if client.supportsBr then .brotli
    else if client.supportsZstd then .zstd
    else if client.supportsGzip then .gzip
    else .none

def makeCompressionDecision : CompressionDecision :=
  match input.compressionPolicy with
  | none => { skipReason := .policyDisabled }
  | some policy =>
    match skipReason? policy input.clientEncoding input with
    | some skipReason => { skipReason }
    | none =>
      { candidate := true, selectedAlgorithmHint := pickAlgorithm policy input.clientEncoding }

end

/-! ## What a client accepts -/

section

variable (header : Text) (alg : CompressionAlgorithm) (tok : Text)

def isNameOf (word : Text) : Bool :=
  match alg with
  | .brotli => toLowercase word = lit "br"
  | .zstd => toLowercase word = lit "zstd"
  | .gzip => toLowercase word = lit "gzip"
  | .none => false

/-- A parameter of the token is a weight of zero. -/
def qualityIsZero : Bool :=
  (tok.splitOn ';').tail.any fun parameter =>
    match toLowercase (trim parameter) with
    | 'q' :: '=' :: '0' :: decimals => decimals.all fun c => c = '.' || c = '0'
    | _ => false

def accepts : Bool :=
  (header.splitOn ',').any fun tok => isNameOf alg (tokenName tok) && !qualityIsZero tok

/-- The token is read as the name of the algorithm, whatever its weight. -/
def readAs : Bool := (tokenName tok).length < 32 && isNameOf alg (cString (tokenName tok))

def mentions : Bool := (header.splitOn ',').any (readAs alg)

/-- The preferred algorithms, and behind them the others. -/
def preferenceOrder (policy : CompressionPolicy) : List CompressionAlgorithm :=
  policy.preferredAlgorithms ++ [.brotli, .zstd, .gzip]

end

variable {header : Text} {alg : CompressionAlgorithm} {tok : Text}

theorem supports_applyToken (out : AcceptEncoding) :
    (applyToken out tok).supports alg = (out.supports alg || readAs alg tok) := by
  unfold applyToken readAs isNameOf
  generalize tokenName tok = name
  dsimp only
  split_ifs with hskip
  · -- a token that is skipped has no name of an algorithm
    rcases Bool.or_eq_true_iff.mp hskip with hempty | hlong
    · rw [isEmpty_iff.mp hempty]
      cases alg <;> simp [cString, toLowercase, lit]
    · simp [Nat.not_lt.mpr (of_decide_eq_true hlong)]
  all_goals cases alg <;> simp_all [AcceptEncoding.supports, lit]

theorem supports_parseAcceptEncoding :
    (parseAcceptEncoding header).supports alg = mentions header alg := by
  have hfold : ∀ (toks : List Text) out, (toks.foldl applyToken out).supports alg =
      (out.supports alg || toks.any (readAs alg)) := by
    intro toks
    induction toks with
    | nil => simp
    | cons tok toks ih => simp [ih, supports_applyToken, Bool.or_assoc]
  rw [parseAcceptEncoding, hfold]
  cases alg <;> rfl

theorem pickAlgorithm_eq (policy : CompressionPolicy) (client : AcceptEncoding) :
    pickAlgorithm policy client =
      ((preferenceOrder policy).find? client.supports).getD .none := by
  rw [pickAlgorithm, preferenceOrder, find?_append]
  cases policy.preferredAlgorithms.find? client.supports with
  | some => rfl
  | none =>
    simp only [find?, AcceptEncoding.supports, Option.none_or]
    split_ifs <;> simp_all

theorem selectedAlgorithmHint_eq (header : Text) (policy : CompressionPolicy)
    (input : CompressionDecisionInput) :
    (makeCompressionDecision { input with
        compressionPolicy := some policy
        clientEncoding := parseAcceptEncoding header }).selectedAlgorithmHint =
      if (skipReason? policy (parseAcceptEncoding header) { input with
          compressionPolicy := some policy, clientEncoding := parseAcceptEncoding header }).isNone then
        ((preferenceOrder policy).find? (mentions header)).getD .none
      else .none := by
  have hsupports : mentions header = (parseAcceptEncoding header).supports :=
    (funext fun _ => supports_parseAcceptEncoding).symm
  rw [hsupports, ← pickAlgorithm_eq]
  unfold makeCompressionDecision
  dsimp only
  generalize skipReason? _ _ _ = reason
  cases reason <;> rfl

/-- An algorithm that a decision names is mentioned in the header, with whatever weight, and is the first
    of those in the order. -/
theorem decision_names_first_mentioned (header : Text) (policy : CompressionPolicy)
    (input : CompressionDecisionInput) (alg : CompressionAlgorithm) (hnamed : alg ≠ .none)
    (hdecision : (makeCompressionDecision { input with
      compressionPolicy := some policy
      clientEncoding := parseAcceptEncoding header }).selectedAlgorithmHint = alg) :
    mentions header alg ∧ (preferenceOrder policy).find? (mentions header) = some alg := by
  rw [selectedAlgorithmHint_eq] at hdecision
  split at hdecision
  · cases hfind : (preferenceOrder policy).find? (mentions header) with
    | none =>
      rw [hfind] at hdecision
      exact absurd hdecision.symm hnamed
    | some found =>
      rw [hfind] at hdecision
      subst hdecision
      exact ⟨find?_some hfind, rfl⟩
  · exact absurd hdecision.symm hnamed

/-- The one that is preferred is mentioned behind another. -/
theorem decision_names_first_mentioned_gzip :
    (preferenceOrder { enabled := true, preferredAlgorithms := [.zstd, .gzip] }).find?
      (mentions (lit "br;q=1.0, GZIP ;q=0.5")) = some .gzip :=
  (decision_names_first_mentioned (lit "br;q=1.0, GZIP ;q=0.5")
    { enabled := true, preferredAlgorithms := [.zstd, .gzip] }
    { statusCode := 200, contentType := lit "text/plain", bodySizeKnown := true } .gzip
    (by decide) (by decide +kernel)).2

/-- The only encoding that the client lists is one that it refuses. -/
theorem refused_encoding_is_chosen :
    (makeCompressionDecision
        { compressionPolicy := some { enabled := true }
          clientEncoding := parseAcceptEncoding (lit "gzip;q=0")
          statusCode := 200, contentType := lit "text/plain"
          bodySizeKnown := true }).selectedAlgorithmHint = .gzip ∧
      accepts (lit "gzip;q=0") .gzip = false := by
  decide +kernel

end ByteTaper.Compression
