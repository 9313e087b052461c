import ByteTaper.Cache.CacheEntry
import Mathlib.Algebra.Group.Nat.Defs

/-! # The bytes of an L2 entry

`cache_entry_codec.cpp`: the header of a stored entry has a fixed size, and states the length of the
body behind it. Decoding compares that length with the body buffer, but not with what is left of the
buffer it reads; and the figures about the unfiltered body, which a hit reports, are not stored. -/

namespace ByteTaper.Cache

open List

def kCacheContentTypeMaxLen : Nat := 64

def kCacheEntryEncodedOverhead : Nat := kCacheKeyMaxLen + 2 + kCacheContentTypeMaxLen + 8 + 8 + 8

/-- `CacheEntry` with its buffers. -/
structure RawCacheEntry where
  key : Fin kCacheKeyMaxLen → UInt8 := fun _ => 0
  statusCode : UInt16 := 0
  contentType : Fin kCacheContentTypeMaxLen → UInt8 := fun _ => 0
  body : List UInt8 := []
  originalBodyLen : Nat := 0
  removedFields : UInt16 := 0
  createdAtEpochMs : Int64 := 0
  expiresAtEpochMs : Int64 := 0

/-- A number in so many bytes, the lowest first. -/
def leBytes : Nat → Nat → List UInt8
  | 0, _ => []
  | size + 1, n => UInt8.ofNat n :: leBytes size (n / 256)

def leNat (bytes : List UInt8) : Nat := bytes.foldr (fun byte n => byte.toNat + 256 * n) 0

/-- The buffer as `cache_entry_encode` fills it, if it is large enough. -/
def cacheEntryEncode (entry : RawCacheEntry) (bufSize : Nat) : Option (List UInt8) :=
  if bufSize < kCacheEntryEncodedOverhead + entry.body.length then none
  else some (List.ofFn entry.key ++ (leBytes 2 entry.statusCode.toNat ++
    (List.ofFn entry.contentType ++ (leBytes 8 entry.body.length ++
      (leBytes 8 entry.createdAtEpochMs.toUInt64.toNat ++
        (leBytes 8 entry.expiresAtEpochMs.toUInt64.toNat ++ entry.body))))))

/-- How far a call of `cache_entry_decode` reads, how much of the body buffer it writes, and what it
    gives. -/
structure Decoding where
  readTo : Nat
  written : Nat := 0
  entry : Option RawCacheEntry := none

variable (buf : List UInt8) (out : RawCacheEntry) (bodyBuf : Bool) (bodyBufSize : Nat)

def cacheEntryDecode : Decoding :=
  if buf.length < kCacheEntryEncodedOverhead then { readTo := 0 }
  else
    let (key, p) := buf.splitAt kCacheKeyMaxLen
    let (statusCode, p) := p.splitAt 2
    let (contentType, p) := p.splitAt kCacheContentTypeMaxLen
    let (bodyLen, p) := p.splitAt 8
    let (createdAt, p) := p.splitAt 8
    let (expiresAt, p) := p.splitAt 8
    let bodyLen := leNat bodyLen
    if bodyBufSize < bodyLen || 0 < bodyLen && !bodyBuf then
      { readTo := kCacheEntryEncodedOverhead }
    else
      { readTo := kCacheEntryEncodedOverhead + bodyLen
        written := bodyLen
        entry := some { out with
          key := fun i => key.getD i 0
          statusCode := .ofNat (leNat statusCode)
          contentType := fun i => contentType.getD i 0
          body := p.take bodyLen
          createdAtEpochMs := (UInt64.ofNat (leNat createdAt)).toInt64
          expiresAtEpochMs := (UInt64.ofNat (leNat expiresAt)).toInt64 } }

/-! ## Bounds -/

/-- The length that the header of a buffer states. -/
def statedBodyLen : Nat :=
  leNat ((buf.drop (kCacheKeyMaxLen + 2 + kCacheContentTypeMaxLen)).take 8)

/-- A buffer is decoded within the two buffers, and rejected if it is too short. -/
structure DecodedSafely : Prop where
  reads : (cacheEntryDecode buf out bodyBuf bodyBufSize).readTo ≤ buf.length
  writes : (cacheEntryDecode buf out bodyBuf bodyBufSize).written ≤ bodyBufSize
  rejects : buf.length < kCacheEntryEncodedOverhead + statedBodyLen buf →
    (cacheEntryDecode buf out bodyBuf bodyBufSize).entry = none

variable {buf out bodyBuf bodyBufSize} in
theorem cacheEntryDecode_eq (h : ¬buf.length < kCacheEntryEncodedOverhead) :
    ∃ entry, cacheEntryDecode buf out bodyBuf bodyBufSize =
      if bodyBufSize < statedBodyLen buf || 0 < statedBodyLen buf && !bodyBuf then
        { readTo := kCacheEntryEncodedOverhead }
      else
        { readTo := kCacheEntryEncodedOverhead + statedBodyLen buf, written := statedBodyLen buf
          entry := some entry } := by
  have hlen : leNat ((((buf.drop kCacheKeyMaxLen).drop 2).drop kCacheContentTypeMaxLen).take 8) =
      statedBodyLen buf := by
    rw [drop_drop, drop_drop, statedBodyLen]
    rfl
  simp only [cacheEntryDecode, splitAt_eq, if_neg h, hlen]
  exact ⟨_, rfl⟩

/-- Decoding is safe exactly if a body that is not refused for the body buffer is in the buffer. -/
theorem decodedSafely_iff : DecodedSafely buf out bodyBuf bodyBufSize ↔
      (kCacheEntryEncodedOverhead ≤ buf.length → statedBodyLen buf ≤ bodyBufSize →
        (0 < statedBodyLen buf → bodyBuf = true) →
          kCacheEntryEncodedOverhead + statedBodyLen buf ≤ buf.length) := by
  by_cases hshort : buf.length < kCacheEntryEncodedOverhead
  · refine iff_of_true ⟨?_, ?_, ?_⟩ fun h => absurd hshort (Nat.not_lt.mpr h) <;>
      simp [cacheEntryDecode, hshort]
  obtain ⟨entry, hrun⟩ := cacheEntryDecode_eq hshort
  have hheader := Nat.le_of_not_lt hshort
  by_cases href : bodyBufSize < statedBodyLen buf || 0 < statedBodyLen buf && !bodyBuf
  · rw [if_pos href] at hrun
    refine iff_of_true ⟨by rwa [hrun], by simp [hrun], by simp [hrun]⟩ fun _ hfits hbuf => ?_
    simp only [Bool.or_eq_true, decide_eq_true_eq, Bool.and_eq_true, Bool.not_eq_true'] at href
    rcases href with hlarge | ⟨hpos, hnone⟩
    · omega
    · rw [hbuf hpos] at hnone
      cases hnone
  · rw [if_neg href] at hrun
    simp only [Bool.or_eq_true, decide_eq_true_eq, Bool.and_eq_true, Bool.not_eq_true', not_or,
      not_and, Bool.not_eq_false, Nat.not_lt] at href
    constructor
    · intro h _ _ _
      simpa [hrun] using h.reads
    · intro h
      have hbody := h hheader href.1 href.2
      exact ⟨by rwa [hrun], by simpa [hrun] using href.1, fun hlt => by omega⟩

/-- A header alone that states a body of one byte: the byte behind the buffer is read. -/
theorem decode_reads_past_the_end :
    ¬DecodedSafely (List.replicate 1090 0 ++ 1 :: List.replicate 23 0) {} true 1 :=
  fun h => absurd h.reads (by decide +kernel)

/-! ## The round trip -/

theorem leNat_leBytes {size n : Nat} (h : n < 256 ^ size) : leNat (leBytes size n) = n := by
  induction size generalizing n with
  | zero => exact (Nat.lt_one_iff.mp h).symm
  | succ size ih =>
    rw [leBytes, leNat, foldr_cons, ← leNat, ih (by omega), UInt8.toNat_ofNat']
    omega

@[simp] theorem length_leBytes (size n : Nat) : (leBytes size n).length = size := by
  induction size generalizing n with
  | zero => rfl
  | succ size ih => rw [leBytes, length_cons, ih]

theorem splitAt_append {first rest : List UInt8} {size : Nat} (h : first.length = size) :
    (first ++ rest).splitAt size = (first, rest) := by
  rw [splitAt_eq, take_left' h, drop_left' h]

theorem decode_encode {entry out : RawCacheEntry} {bufSize bodyBufSize : Nat}
    (hbuf : kCacheEntryEncodedOverhead + entry.body.length ≤ bufSize)
    (hbody : entry.body.length ≤ bodyBufSize) (hlen : entry.body.length < 2 ^ 64) :
    ((cacheEntryEncode entry bufSize).bind fun buf =>
      (cacheEntryDecode buf out true bodyBufSize).entry) =
      some { entry with
        originalBodyLen := out.originalBodyLen, removedFields := out.removedFields } := by
  have hword : ∀ n : UInt64, leNat (leBytes 8 n.toNat) = n.toNat := fun n =>
    leNat_leBytes n.toNat_lt
  have hstat : leNat (leBytes 2 entry.statusCode.toNat) = entry.statusCode.toNat :=
    leNat_leBytes entry.statusCode.toNat_lt
  have hstated : leNat (leBytes 8 entry.body.length) = entry.body.length := leNat_leBytes hlen
  rw [cacheEntryEncode, if_neg (by omega), Option.bind_some, cacheEntryDecode, if_neg]
  · simp only [splitAt_append, length_ofFn, length_leBytes, hword, hstat, hstated]
    rw [if_neg (by simpa using hbody)]
    simp
  · simp only [length_append, length_ofFn, length_leBytes, kCacheEntryEncodedOverhead]
    omega

/-- The headers with figures that `map_cache_hit_to_immediate_response` takes from the entry, next to
    the status, the content type and the body. -/
def hitFigures (entry : RawCacheEntry) : List (Text × Text) :=
  let len := entry.body.length
  let original := if 0 < entry.originalBodyLen then entry.originalBodyLen else len
  [(lit "x-bytetaper-waste-removed-fields", Nat.toDigits 10 entry.removedFields.toNat),
    (lit "x-bytetaper-waste-saved-bytes", Nat.toDigits 10 (entry.originalBodyLen - len)),
    (lit "x-bytetaper-original-response-bytes", Nat.toDigits 10 original),
    (lit "x-bytetaper-optimized-response-bytes", Nat.toDigits 10 len),
    (lit "x-bytetaper-transform-applied", lit (if 0 < entry.removedFields then "true" else "false"))]

/-- Decoding the encoded entry gives it back, and with it the response to a hit. -/
def SurvivesL2 (entry out : RawCacheEntry) (bufSize bodyBufSize : Nat) : Prop :=
  ∃ decoded, ((cacheEntryEncode entry bufSize).bind fun buf =>
    (cacheEntryDecode buf out true bodyBufSize).entry) = some decoded ∧ decoded = entry ∧
      hitFigures decoded = hitFigures entry

/-- An entry survives exactly if its figures are the ones that the decoded entry starts with. -/
theorem survivesL2_iff (entry out : RawCacheEntry) (bufSize bodyBufSize : Nat)
    (hbuf : kCacheEntryEncodedOverhead + entry.body.length ≤ bufSize)
    (hbody : entry.body.length ≤ bodyBufSize) (hlen : entry.body.length < 2 ^ 64) :
    SurvivesL2 entry out bufSize bodyBufSize ↔
      entry.originalBodyLen = out.originalBodyLen ∧ entry.removedFields = out.removedFields := by
  rw [SurvivesL2, decode_encode hbuf hbody hlen]
  constructor
  · rintro ⟨_, hdec, rfl, -⟩
    have h := Option.some.inj hdec
    exact ⟨(congrArg (·.originalBodyLen) h).symm, (congrArg (·.removedFields) h).symm⟩
  · rintro ⟨horig, hrem⟩
    refine ⟨entry, ?_, rfl, rfl⟩
    rw [← horig, ← hrem]

/-- An unfiltered entry, decoded into an empty one. -/
theorem survivesL2_iff_unfiltered : SurvivesL2 { body := [7] } {} 1115 1 :=
  (survivesL2_iff { body := [7] } {} 1115 1 (by decide) (by decide) (by decide)).mpr ⟨rfl, rfl⟩

/-- A field was removed from the body, and the hit from L2 reports none. -/
theorem filtered_entry_not_restored :
    ¬SurvivesL2 { body := [7], originalBodyLen := 9, removedFields := 1 } {} 1115 1 := by
  rw [SurvivesL2, decode_encode (by decide) (by decide) (by decide)]
  rintro ⟨_, hdec, rfl, -⟩
  cases hdec

end ByteTaper.Cache
