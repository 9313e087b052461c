import ByteTaper.Cache.CacheEntry
import ByteTaper.Library.ShardedSlots
import Mathlib.Algebra.GroupWithZero.Nat

/-! # The L1 cache

`l1_cache.cpp`: shards with a ring of slots each. A slot is in use if its generation is not zero. An
entry goes to the slot that has its key already, or else to the slot under the write cursor, whatever
that slot holds. The body of an entry is copied into the slot and out of it. The events that the
functions count in the metrics are left out, and so are the null pointers they check for, except for a
body that is missing. -/

namespace ByteTaper.Cache

open Function

def kL1ShardCount : Nat := 256
def kL1SlotsPerShard : Nat := 16
def kL1MaxBodySize : Nat := 3072

/-- `slots`, `bodies`, `generations` and `key_hashes` at one position of a shard. -/
structure L1Slot where
  entry : CacheEntry := { key := [] }
  generation : UInt32 := 0
  keyHash : UInt64 := 0

structure L1CacheShard where
  slots : Fin kL1SlotsPerShard → L1Slot := fun _ => {}
  writeCursor : UInt64 := 0

abbrev L1Cache := Fin kL1ShardCount → L1CacheShard

/-- `l1_init`. -/
def l1Init : L1Cache := fun _ => {}

instance : NeZero kL1ShardCount := ⟨by decide⟩
instance : NeZero kL1SlotsPerShard := ⟨by decide⟩

/-- `bodyPresent` is false for an entry whose body is a null pointer. -/
def l1CanStoreEntry (entry : CacheEntry) (bodyPresent : Bool) : Bool :=
  !(kL1MaxBodySize < entry.body.length) && !(0 < entry.body.length && !bodyPresent)

def L1Slot.inUse (slot : L1Slot) : Bool := 0 < slot.generation

/-- The two texts agree up to the size of a key buffer. -/
def sameKey (key key' : Text) : Bool := key.take kCacheKeyMaxLen == key'.take kCacheKeyMaxLen

/-! ## The operations -/

section Hash

-- `hash_cstr_runtime`, which is keyed with the seed of the process.
variable (hash : Text → UInt64) (shard : L1CacheShard) (l1 : L1Cache) (entry : CacheEntry)
  (bodyPresent : Bool) (bodyOutCapacity : Nat)

def l1ShardOf (key : Text) : Fin kL1ShardCount :=
  Fin.ofNat kL1ShardCount (hash key).toNat

/-- The slot that has the key of an entry to be stored. -/
def duplicateSlot (key : Text) : Option (Fin kL1SlotsPerShard) :=
  ShardedSlots.scan shard.slots fun slot =>
    slot.inUse && slot.keyHash == hash key && slot.entry.key == key

def cursorSlot : Fin kL1SlotsPerShard :=
  Fin.ofNat kL1SlotsPerShard shard.writeCursor.toNat

def writeSlot (shard : L1CacheShard) (target : Fin kL1SlotsPerShard) (entry : CacheEntry) :
    Fin kL1SlotsPerShard → L1Slot :=
  Function.update shard.slots target
    { entry := { entry with body := entry.body.take kL1MaxBodySize }
      generation := (shard.slots target).generation + 1
      keyHash := hash entry.key }

/-- The entry is written, and the cursor goes on if it was not written over its key. -/
def storeEntry : L1CacheShard :=
  match duplicateSlot hash shard entry.key with
  | some i => { shard with slots := writeSlot hash shard i entry }
  | none =>
    { slots := writeSlot hash shard (cursorSlot shard) entry
      writeCursor := shard.writeCursor + 1 }

def l1Put : L1Cache :=
  if l1CanStoreEntry entry bodyPresent then
    let s := l1ShardOf hash entry.key
    Function.update l1 s (storeEntry hash (l1 s) entry)
  else l1

/-- The key is in the shard with a later creation time. -/
def hasNewer : Bool :=
  match duplicateSlot hash shard entry.key with
  | some i => entry.createdAtEpochMs < (shard.slots i).entry.createdAtEpochMs
  | none => false

/-- `l1_put_if_newer`, with whether the entry was stored. -/
def l1PutIfNewer : L1Cache × Bool :=
  if l1CanStoreEntry entry bodyPresent then
    let s := l1ShardOf hash entry.key
    if hasNewer hash (l1 s) entry then (l1, false)
    else (Function.update l1 s (storeEntry hash (l1 s) entry), true)
  else (l1, false)

/-- What is copied out of a slot, the body into a buffer of some capacity. -/
def copyOut : CacheEntry :=
  { entry with body := entry.body.take bodyOutCapacity }

def l1Get (key : Text) (nowMs : Int64) (bodyOutCapacity : Nat) : Option CacheEntry :=
  let shard := l1 (l1ShardOf hash key)
  (ShardedSlots.scan shard.slots fun slot =>
    slot.inUse && slot.keyHash == hash key && sameKey slot.entry.key key &&
      !(0 < nowMs && isExpired slot.entry nowMs)).map fun i =>
    copyOut (shard.slots i).entry bodyOutCapacity

inductive L1RemoveResult where
  | removed | miss

/-- `l1_remove`: the first slot with the key is cleared. -/
def l1Remove (key : Text) : L1Cache × L1RemoveResult :=
  let s := l1ShardOf hash key
  match ShardedSlots.scan (l1 s).slots fun slot =>
    slot.inUse && slot.keyHash == hash key && sameKey slot.entry.key key with
  | some i =>
    (Function.update l1 s { l1 s with slots := Function.update (l1 s).slots i {} }, .removed)
  | none => (l1, .miss)

end Hash

/-! ## The cleanup of a route -/

structure L1RouteNamespaceCleanupRequest where
  routeId : Option Text := none
  oldEpoch : UInt64 := 0
  oldPolicyIdentity : Option Text := none

structure L1RouteNamespaceCleanupResult where
  ok : Bool
  removedCount : Nat
  error : Text

/-- The marker in the keys of a route and an epoch, in a buffer of 512 characters. -/
def cleanupMarker (routeId : Text) (oldEpoch : UInt64) : Text :=
  (lit "|" ++ routeId ++ lit "|epoch:" ++ Nat.toDigits 10 oldEpoch.toNat ++ lit "|").take 511

/-- `strstr`: the rest of the text from the first occurrence of the other text on. -/
def strstr (needle : Text) : Text → Option Text
  | [] => if needle.isEmpty then some [] else none
  | c :: text => if needle.isPrefixOf (c :: text) then some (c :: text) else strstr needle text

/-- The rest of the text after a number of bars, if there are so many. -/
def skipBars : Nat → Text → Option Text
  | 0, text => some text
  | _ + 1, [] => none
  | bars + 1, c :: text => if c = '|' then skipBars bars text else skipBars (bars + 1) text

variable (request : L1RouteNamespaceCleanupRequest)

/-- The key has the marker, and the old policy identity, if there is one, three bars after it. -/
def inRouteNamespace (routeId key : Text) : Bool :=
  let marker := cleanupMarker routeId request.oldEpoch
  match strstr marker key, request.oldPolicyIdentity.getD [] with
  | none, _ => false
  | some _, [] => true
  | some rest, identity =>
    match skipBars 3 (rest.drop marker.length) with
    | none => false
    | some rest => rest.takeWhile (· ≠ '|') == identity

def cleanedSlot (routeId : Text) (slot : L1Slot) : Bool :=
  slot.inUse && inRouteNamespace request routeId slot.entry.key

def cleanSlots (routeId : Text) (shard : L1CacheShard) : Fin kL1SlotsPerShard → L1Slot :=
  fun i => if cleanedSlot request routeId (shard.slots i) then {} else shard.slots i

def l1CleanupRouteNamespace (l1 : L1Cache) (request : L1RouteNamespaceCleanupRequest) :
    L1Cache × L1RouteNamespaceCleanupResult :=
  match request.routeId with
  | none => (l1, { ok := false, removedCount := 0, error := lit "null cache or route_id" })
  | some routeId =>
    (fun s => { l1 s with slots := cleanSlots request routeId (l1 s) },
     { ok := true
       removedCount := ((List.finRange kL1ShardCount).map fun s =>
         (List.finRange kL1SlotsPerShard).countP fun i =>
           cleanedSlot request routeId ((l1 s).slots i)).sum
       error := [] })

/-! ## What the slots hold -/

/-- Every entry in use has the property. -/
def L1Cache.All (P : CacheEntry → Prop) (l1 : L1Cache) : Prop :=
  ∀ s i, ((l1 s).slots i).inUse = true → P ((l1 s).slots i).entry

namespace L1Cache

variable {hash : Text → UInt64} {P : CacheEntry → Prop} {l1 : L1Cache}

theorem All.init : All P l1Init := nofun

theorem All.mono {Q} (h : All P l1) (hpq : ∀ entry, P entry → Q entry) : All Q l1 :=
  fun s i huse => hpq _ (h s i huse)

variable {entry : CacheEntry} {bodyPresent : Bool}

section

variable (h : All P l1)

include h

theorem All.store (hstore : l1CanStoreEntry entry bodyPresent) (hent : P entry)
    (s : Fin kL1ShardCount) : All P (update l1 s (storeEntry hash (l1 s) entry)) := by
  have hbody : entry.body.take kL1MaxBodySize = entry.body := by
    refine List.take_of_length_le ?_
    simp only [l1CanStoreEntry, Bool.and_eq_true, Bool.not_eq_true', decide_eq_false_iff_not] at hstore
    omega
  have hwrite : ∀ target i, (writeSlot hash (l1 s) target entry i).inUse →
      P (writeSlot hash (l1 s) target entry i).entry := by
    intro target i huse
    unfold writeSlot at huse ⊢
    by_cases hi : i = target
    · subst hi
      rw [update_self, hbody]
      exact hent
    · rw [update_of_ne hi] at huse ⊢
      exact h s i huse
  intro t i huse
  by_cases ht : t = s
  · subst ht
    rw [update_self] at huse ⊢
    unfold storeEntry at huse ⊢
    split at huse
    · exact hwrite _ i huse
    · exact hwrite _ i huse
  · rw [update_of_ne ht] at huse ⊢
    exact h t i huse

theorem All.put (hent : l1CanStoreEntry entry bodyPresent → P entry) :
    All P (l1Put hash l1 entry bodyPresent) := by
  unfold l1Put
  split
  next hstore => exact h.store hstore (hent hstore) _
  next => exact h

theorem All.putIfNewer (hent : l1CanStoreEntry entry bodyPresent → P entry) :
    All P (l1PutIfNewer hash l1 entry bodyPresent).1 := by
  unfold l1PutIfNewer
  split
  next hstore =>
    dsimp only
    split
    · exact h
    · exact h.store hstore (hent hstore) _
  next => exact h

theorem All.remove (key : Text) : All P (l1Remove hash l1 key).1 := by
  unfold l1Remove
  dsimp only
  split
  next target _ =>
    intro t i huse
    dsimp only at huse ⊢
    by_cases ht : t = l1ShardOf hash key
    · subst ht
      rw [update_self] at huse ⊢
      by_cases hi : i = target
      · subst hi
        simp [L1Slot.inUse] at huse
      · simp only [update_of_ne hi] at huse ⊢
        exact h _ i huse
    · rw [update_of_ne ht] at huse ⊢
      exact h t i huse
  next => exact h

theorem All.cleanup (request : L1RouteNamespaceCleanupRequest) :
    All P (l1CleanupRouteNamespace l1 request).1 := by
  unfold l1CleanupRouteNamespace
  split
  · exact h
  rename_i routeId _
  intro t i huse
  simp only [cleanSlots] at huse ⊢
  split at huse
  · simp [L1Slot.inUse] at huse
  next hkeep =>
    rw [if_neg hkeep]
    exact h t i huse

/-- What is found has the property, and agrees with the key as far as a key buffer goes. -/
theorem All.get {key : Text} {nowMs : Int64} {bodyOutCapacity : Nat} {found : CacheEntry}
    (hget : l1Get hash l1 key nowMs bodyOutCapacity = some found) :
    ∃ entry, P entry ∧ sameKey entry.key key ∧ found = copyOut entry bodyOutCapacity := by
  obtain ⟨i, hscan, rfl⟩ := Option.map_eq_some_iff.mp hget
  have hslot := ShardedSlots.scan_some hscan
  simp only [Bool.and_eq_true] at hslot
  exact ⟨_, h _ i hslot.1.1.1, hslot.1.2, rfl⟩

end

end L1Cache

end ByteTaper.Cache
