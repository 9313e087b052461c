import ByteTaper.Library.Text

/-! # Cache entries and the L2 store

The entry that both caches hold, and the L2 disk cache as the code uses RocksDB: a map from keys to
encoded entries with an atomic put and an atomic delete. `cache_entry_encode` writes the key, the
status, the content type, the body and the two times; the figures about the unfiltered body are not
written. -/

namespace ByteTaper.Cache

def kCacheKeyMaxLen : Nat := 1024

def kL2MaxBodySize : Nat := 1024 * 1024

structure CacheEntry where
  key : Text
  statusCode : UInt16 := 0
  contentType : Text := []
  body : Text := []
  originalBodyLen : Nat := 0
  removedFields : UInt16 := 0
  createdAtEpochMs : Int64 := 0
  expiresAtEpochMs : Int64 := 0
deriving DecidableEq

/-- An entry without a time to live never expires. -/
def isExpired (entry : CacheEntry) (nowMs : Int64) : Bool :=
  entry.expiresAtEpochMs != 0 && entry.expiresAtEpochMs ≤ nowMs

/-- To L2 an entry without a time to live has expired. -/
def cacheTtlValid (nowMs expiresAtEpochMs : Int64) : Bool :=
  0 < expiresAtEpochMs && nowMs < expiresAtEpochMs

/-- The entry as far as `cache_entry_encode` writes it. -/
def CacheEntry.encoded (entry : CacheEntry) : CacheEntry :=
  { entry with originalBodyLen := 0, removedFields := 0 }

/-- What the L2 store holds under each key. -/
abbrev L2Store := Text → Option CacheEntry

/-- `l2_put_result` with a scratch buffer for the largest body. -/
def l2Put (l2 : L2Store) (entry : CacheEntry) : L2Store :=
  if kL2MaxBodySize < entry.body.length then l2
  else fun key => if key = entry.key then some entry.encoded else l2 key

def l2Remove (l2 : L2Store) (key : Text) : L2Store :=
  fun key' => if key' = key then none else l2 key'

end ByteTaper.Cache
