import ByteTaper.TaperQuery.PolicyIr

/-! # Authenticated requests and hashed header values

`cache_safety.cpp`: when a request is kept away from the cache, and the hashes of header values that a
cache key is built with. -/

namespace ByteTaper.Cache

open TaperQuery (formatHex)

def cacheAuthBypass (hasAuthorization hasCookie privateCacheEnabled : Bool) : Bool :=
  if privateCacheEnabled then false else hasAuthorization || hasCookie

/-- FNV-1a. -/
def valueHash (rawValue : Text) : UInt64 :=
  rawValue.foldl (fun h c => (h ^^^ c.toNat.toUInt8.toUInt64) * 1099511628211)
    14695981039346656037

/-- The hash as a text; the buffer needs room for it and a terminator. -/
def hashedValue (rawValue : Text) (outSize : Nat) : Option Text :=
  if rawValue.isEmpty || outSize < 17 then none else some (formatHex (valueHash rawValue))

def buildPrivateCacheScopeHash : Text → Nat → Option Text := hashedValue

def buildCacheVaryValueHash : Text → Nat → Option Text := hashedValue

theorem hashedValue_eq {rawValue : Text} {outSize : Nat} (hval : rawValue ≠ [])
    (hsize : 17 ≤ outSize) : hashedValue rawValue outSize = some (formatHex (valueHash rawValue)) := by
  rw [hashedValue, if_neg]
  simp only [Bool.or_eq_true, List.isEmpty_iff, decide_eq_true_eq, not_or]
  exact ⟨hval, by omega⟩

/-- No two of the values have the same hash. -/
def NoCollisions (values : List Text) : Prop :=
  ∀ value ∈ values, ∀ other ∈ values, valueHash value = valueHash other → value = other

end ByteTaper.Cache
