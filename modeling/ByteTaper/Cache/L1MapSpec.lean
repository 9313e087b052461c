import Mathlib.Data.List.Induction
import ByteTaper.Cache.L1Cache
import ByteTaper.Library.Calls

/-! # The L1 cache as a map

What the cache is for: a map from keys to entries that may forget an entry at any time, but never gives
an entry that is not the last one accepted for its key. The map is read off the calls made so far
(`acceptedFor`); the slots in use hold a part of it (`Holds`), whatever the hash function is and although
generations wrap around, and every call keeps that. -/

namespace ByteTaper.Cache

open List Function ShardedSlots L1Slot Option

/-! ## Calls and what they ask for -/

inductive L1Op where
  | put (entry : CacheEntry) (bodyPresent : Bool)
  | putIfNewer (entry : CacheEntry) (bodyPresent : Bool)
  | get (key : Text) (nowMs : Int64) (bodyOutCapacity : Nat)
  | remove (key : Text)
  | cleanup (request : L1RouteNamespaceCleanupRequest)

inductive L1Answer where
  | none
  | stored (stored : Bool)
  | found (found : Option CacheEntry)
  | removed (result : L1RemoveResult)
  | cleaned (result : L1RouteNamespaceCleanupResult)

/-- The key of an entry is a text in a buffer of `kCacheKeyMaxLen` characters. -/
def L1Op.KeyFits : L1Op → Prop
  | .put entry _ | .putIfNewer entry _ => entry.key.length < kCacheKeyMaxLen
  | _ => True

instance : DecidablePred L1Op.KeyFits
  | .put entry _ | .putIfNewer entry _ =>
    inferInstanceAs (Decidable (entry.key.length < kCacheKeyMaxLen))
  | .get .. | .remove _ | .cleanup _ => inferInstanceAs (Decidable True)

/-- A call and its answer. -/
abbrev L1Event := L1Op × L1Answer

/-- The entry that a call has put into the cache. -/
def L1Event.accepted : L1Event → Option CacheEntry
  | (.put entry bodyPresent, _) => if l1CanStoreEntry entry bodyPresent then some entry else none
  | (.putIfNewer entry _, .stored true) => some entry
  | _ => none

def L1Event.removes (event : L1Event) (key : Text) : Bool :=
  match event.1 with
  | .remove key' => key' == key
  | .cleanup request => request.routeId.any fun routeId => inRouteNamespace request routeId key
  | _ => false

/-- The map after one more call. -/
def recordEvent (map : Text → Option CacheEntry) (event : L1Event) : Text → Option CacheEntry :=
  fun key =>
    match event.accepted with
    | some entry => if entry.key = key then some entry else map key
    | none => if event.removes key then none else map key

/-- The last entry accepted for a key, unless the key was removed later. -/
def acceptedFor (history : List L1Event) : Text → Option CacheEntry :=
  history.foldl recordEvent fun _ => none

/-- The entry was accepted by one of the calls, and none of the later ones accepted another entry for
    its key or removed the key. -/
def LastAccepted (history : List L1Event) (entry : CacheEntry) : Prop :=
  ∃ earlier event later, history = earlier ++ event :: later ∧ event.accepted = some entry ∧
    ∀ event' ∈ later, event'.removes entry.key = false ∧
      ∀ entry', event'.accepted = some entry' → entry'.key ≠ entry.key

theorem acceptedFor_append (history : List L1Event) (event : L1Event) :
    acceptedFor (history ++ [event]) = recordEvent (acceptedFor history) event :=
  foldl_concat ..

variable {entry : CacheEntry}

open L1Event

theorem recordEvent_eq_some {map} {event : L1Event} {key : Text}
    (h : recordEvent map event key = some entry) :
    (event.accepted = some entry ∧ entry.key = key) ∨
      (map key = some entry ∧ event.removes key = false ∧
        ∀ entry', event.accepted = some entry' → entry'.key ≠ key) := by
  have hrem : ∀ entry', event.accepted = some entry' → event.removes key = false := by
    obtain ⟨op, answer⟩ := event
    cases op <;> simp [accepted, removes]
  unfold recordEvent at h
  split at h
  next entry' hacc =>
    split at h
    next hkey =>
      cases h
      exact .inl ⟨hacc, hkey⟩
    next hkey =>
      refine .inr ⟨h, hrem entry' hacc, fun entry'' h'' => ?_⟩
      rw [hacc] at h''
      cases h''
      exact hkey
  next hacc =>
    split at h
    · cases h
    next hkeep =>
      refine .inr ⟨h, Bool.eq_false_iff.mpr hkeep, fun entry' h' => ?_⟩
      rw [hacc] at h'
      cases h'

theorem lastAccepted_of_acceptedFor {history : List L1Event} {key : Text}
    (h : acceptedFor history key = some entry) : entry.key = key ∧ LastAccepted history entry := by
  induction history using List.reverseRecOn with
  | nil => cases h
  | append_singleton history event ih =>
    rw [acceptedFor_append] at h
    rcases recordEvent_eq_some h with ⟨hacc, hkey⟩ | ⟨h, hrem, hothers⟩
    · exact ⟨hkey, history, event, [], rfl, hacc, by simp⟩
    obtain ⟨hkey, earlier, event', later, rfl, hacc, hlater⟩ := ih h
    refine ⟨hkey, earlier, event', later ++ [event], by simp, hacc, ?_⟩
    subst hkey
    exact forall_mem_append.mpr ⟨hlater, forall_mem_singleton.mpr ⟨hrem, hothers⟩⟩

/-! ## The slots hold a part of the map -/

def L1Slot.content (slot : L1Slot) : Option CacheEntry :=
  if slot.inUse then some slot.entry else none

theorem L1Slot.content_eq_some {slot : L1Slot} :
    slot.content = some entry ↔ slot.inUse ∧ slot.entry = entry := by
  unfold content
  split <;> simp_all

def L1Cache.table (l1 : L1Cache) : ShardedSlots.Table kL1ShardCount kL1SlotsPerShard L1Slot :=
  fun s i => (l1 s).slots i

section Hash

variable (hash : Text → UInt64)

structure Holds (map : Text → Option CacheEntry) (l1 : L1Cache) : Prop where
  keyed : ShardedSlots.Keyed L1Slot.content CacheEntry.key (l1ShardOf hash) (L1Cache.table l1)
  hashed : ∀ s i entry, (L1Cache.table l1 s i).content = some entry →
    (L1Cache.table l1 s i).keyHash = hash entry.key
  fits : ∀ s i entry, (L1Cache.table l1 s i).content = some entry →
    entry.key.length < kCacheKeyMaxLen ∧ entry.body.length ≤ kL1MaxBodySize
  current : ∀ s i entry, (L1Cache.table l1 s i).content = some entry → map entry.key = some entry

variable {hash} {map : Text → Option CacheEntry} {l1 : L1Cache}

theorem holds_init : Holds hash (fun _ => none) l1Init := by
  have hempty : ∀ s i entry, (L1Cache.table l1Init s i).content ≠ some entry := by
    intro s i entry h
    cases h
  exact ⟨⟨fun s i e h => absurd h (hempty s i e), fun s i j e e' h => absurd h (hempty s i e)⟩,
    fun s i e h => absurd h (hempty s i e), fun s i e h => absurd h (hempty s i e),
    fun s i e h => absurd h (hempty s i e)⟩

/-- Slots that lose their entry keep the rest, and so does a map that still has what is left. -/
theorem Holds.sub (h : Holds hash map l1) {map'} {l1' : L1Cache}
    (hslots : ∀ s i entry, (l1'.table s i).content = some entry →
      l1'.table s i = l1.table s i ∧ map' entry.key = map entry.key) :
    Holds hash map' l1' := by
  have hold : ∀ s i entry, (l1'.table s i).content = some entry →
      (l1.table s i).content = some entry := by
    intro s i entry hent
    rw [← (hslots s i entry hent).1, hent]
  refine ⟨h.keyed.sub hold, ?_, ?_, ?_⟩
  · intro s i entry hent
    rw [(hslots s i entry hent).1, h.hashed s i entry (hold s i entry hent)]
  · exact fun s i entry hent => h.fits s i entry (hold s i entry hent)
  · intro s i entry hent
    rw [(hslots s i entry hent).2, h.current s i entry (hold s i entry hent)]

section

variable (h : Holds hash map l1) (s : Fin kL1ShardCount) (i : Fin kL1SlotsPerShard) (key : Text)

include h

/-- The test for the key of an entry to be stored finds the key. -/
theorem Holds.duplicate_iff : (((l1 s).slots i).inUse && ((l1 s).slots i).keyHash == hash key &&
        ((l1 s).slots i).entry.key == key) ↔
      ∃ entry, (l1.table s i).content = some entry ∧ entry.key = key := by
  simp only [Bool.and_eq_true, beq_iff_eq]
  constructor
  · rintro ⟨⟨huse, -⟩, hkey⟩
    exact ⟨_, content_eq_some.mpr ⟨huse, rfl⟩, hkey⟩
  · rintro ⟨entry, hcont, rfl⟩
    have hhash := h.hashed s i entry hcont
    obtain ⟨huse, hent⟩ := content_eq_some.mp hcont
    exact ⟨⟨huse, hhash⟩, congrArg CacheEntry.key hent⟩

/-- The test of looking up and of removing finds the key as well: a stored key ends within the part
    that is compared. -/
theorem Holds.lookup_iff : (((l1 s).slots i).inUse && ((l1 s).slots i).keyHash == hash key &&
        sameKey ((l1 s).slots i).entry.key key) ↔
      ∃ entry, (l1.table s i).content = some entry ∧ entry.key = key := by
  rw [← h.duplicate_iff]
  simp only [Bool.and_eq_true, and_congr_right_iff, and_imp]
  intro huse _
  have hcont := content_eq_some.mpr ⟨huse, rfl⟩
  have hfits := (h.fits s i _ hcont).1
  rw [sameKey, beq_iff_eq, beq_iff_eq, take_of_length_le (Nat.le_of_lt hfits)]
  constructor
  · intro htake
    have hlen := congrArg List.length htake
    rw [length_take] at hlen
    rw [htake, take_of_length_le (by omega)]
  · intro hkey
    rw [← hkey, take_of_length_le (Nat.le_of_lt hfits)]

end

/-! ## Every call keeps it -/

/-- The slot that an entry with the key goes to. -/
def targetSlot (hash : Text → UInt64) (shard : L1CacheShard) (key : Text) : Fin kL1SlotsPerShard :=
  (duplicateSlot hash shard key).getD (cursorSlot shard)

theorem storeEntry_slots (shard : L1CacheShard) (entry : CacheEntry) :
    (storeEntry hash shard entry).slots =
      writeSlot hash shard (targetSlot hash shard entry.key) entry := by
  unfold storeEntry targetSlot
  cases duplicateSlot hash shard entry.key <;> rfl

/-- The key is in no other slot than the one that is found for an entry with it. -/
theorem Holds.duplicateSlot_eq (h : Holds hash map l1) {key : Text} {j}
    (hj : (l1.table (l1ShardOf hash key) j).content = some entry)
    (hkey : entry.key = key) :
    duplicateSlot hash (l1 (l1ShardOf hash key)) key = some j := by
  cases hfound : duplicateSlot hash (l1 (l1ShardOf hash key)) key with
  | none =>
    have hnone := scan_none hfound j
    rw [(h.duplicate_iff _ j key).mpr ⟨entry, hj, hkey⟩] at hnone
    cases hnone
  | some i =>
    obtain ⟨entry', hi, hkey'⟩ := (h.duplicate_iff _ i key).mp (scan_some hfound)
    rw [h.keyed.unique _ j i entry entry' hj hi (hkey.trans hkey'.symm)]

/-- A store writes the target slot of the shard. -/
theorem table_storeEntry {s : Fin kL1ShardCount} (hbody : entry.body.length ≤ kL1MaxBodySize) :
    L1Cache.table (update l1 s (storeEntry hash (l1 s) entry)) =
      ShardedSlots.set (l1.table) s (targetSlot hash (l1 s) entry.key)
        { entry
          generation :=
            ((l1 s).slots (targetSlot hash (l1 s) entry.key)).generation + 1
          keyHash := hash entry.key } := by
  funext s' j
  unfold L1Cache.table ShardedSlots.set
  by_cases hs' : s' = s
  · subst hs'
    rw [update_self, update_self, storeEntry_slots, writeSlot, take_of_length_le hbody]
  · rw [update_of_ne hs', update_of_ne hs']

theorem Holds.store (h : Holds hash map l1) {bodyPresent : Bool}
    (hstore : l1CanStoreEntry entry bodyPresent)
    (hfits : entry.key.length < kCacheKeyMaxLen) :
    Holds hash (fun key => if entry.key = key then some entry else map key)
      (update l1 (l1ShardOf hash entry.key)
        (storeEntry hash (l1 (l1ShardOf hash entry.key)) entry)) := by
  have hbody : entry.body.length ≤ kL1MaxBodySize := by
    simp only [l1CanStoreEntry, Bool.and_eq_true, Bool.not_eq_true', decide_eq_false_iff_not] at hstore
    omega
  generalize hs : l1ShardOf hash entry.key = s
  let target := targetSlot hash (l1 s) entry.key
  let written : L1Slot :=
    { entry, generation := ((l1 s).slots target).generation + 1
      keyHash := hash entry.key }
  have htable : L1Cache.table (update l1 s (storeEntry hash (l1 s) entry)) =
      ShardedSlots.set (l1.table) s target written := table_storeEntry hbody
  have hwr : ∀ e, written.content = some e → e = entry :=
    fun e he => (content_eq_some.mp he).2.symm
  have htgt : ∀ j e, (l1.table s j).content = some e → e.key = entry.key → j = target := by
    intro j e he hkey
    subst hs
    simp only [target, targetSlot, h.duplicateSlot_eq he hkey, getD_some]
  -- a slot in use holds the new entry, or an entry with another key
  have hcases : ∀ s' j e, (ShardedSlots.set (l1.table) s target written s' j).content =
      some e → (ShardedSlots.set (l1.table) s target written s' j = written ∧ e = entry) ∨
        (ShardedSlots.set (l1.table) s target written s' j = l1.table s' j ∧
          (l1.table s' j).content = some e ∧ e.key ≠ entry.key) := by
    intro s' j e he
    rcases content_set he with ⟨rfl, rfl, hnew⟩ | ⟨hother, hold⟩
    · exact .inl ⟨set_same .., hwr e hnew⟩
    · refine .inr ⟨set_other _ _ hother, hold, fun hkey => ?_⟩
      have hs' : s' = s := by rw [← h.keyed.home s' j e hold, hkey, hs]
      subst hs'
      exact hother rfl (htgt j e hold hkey)
  constructor
  · rw [htable]
    apply h.keyed.set
    intro e he
    rw [hwr e he]
    exact ⟨hs, fun j e' => htgt j e'⟩
  · rw [htable]
    intro s' j e he
    rcases hcases s' j e he with ⟨hslot, rfl⟩ | ⟨hslot, he, -⟩
    · rw [hslot]
    · rw [hslot, h.hashed s' j e he]
  · rw [htable]
    intro s' j e he
    rcases hcases s' j e he with ⟨-, rfl⟩ | ⟨-, he, -⟩
    · exact ⟨hfits, hbody⟩
    · exact h.fits s' j e he
  · rw [htable]
    intro s' j e he
    rcases hcases s' j e he with ⟨-, rfl⟩ | ⟨-, he, hkey⟩
    · exact if_pos rfl
    · rw [if_neg (Ne.symm hkey), h.current s' j e he]

theorem Holds.remove (h : Holds hash map l1) (key : Text) :
    Holds hash (fun key' => if key == key' then none else map key') (l1Remove hash l1 key).1 := by
  unfold l1Remove
  dsimp only
  split
  next i hfound =>
    obtain ⟨removed, hi, hikey⟩ := (h.lookup_iff _ i key).mp (scan_some hfound)
    apply h.sub
    intro s j entry hent
    unfold L1Cache.table at hent ⊢
    dsimp only at hent ⊢
    by_cases hs : s = l1ShardOf hash key
    · subst hs
      rw [update_self] at hent ⊢
      by_cases hj : j = i
      · subst hj
        simp only [update_self] at hent
        cases hent
      · simp only [update_of_ne hj] at hent ⊢
        refine ⟨trivial, if_neg fun hkey => hj ?_⟩
        rw [beq_iff_eq] at hkey
        exact h.keyed.unique _ j i _ _ hent hi (hkey.symm.trans hikey.symm)
    · rw [update_of_ne hs] at hent ⊢
      refine ⟨rfl, if_neg fun hkey => hs ?_⟩
      rw [beq_iff_eq] at hkey
      rw [← h.keyed.home s j entry hent, hkey]
  next hnone =>
    apply h.sub
    intro s j entry hent
    refine ⟨rfl, if_neg fun hkey => ?_⟩
    rw [beq_iff_eq] at hkey
    obtain rfl := h.keyed.home s j entry hent
    subst hkey
    have hscan := scan_none hnone j
    rw [(h.lookup_iff _ j entry.key).mpr ⟨entry, hent, rfl⟩] at hscan
    cases hscan

theorem Holds.cleanup (h : Holds hash map l1) (request : L1RouteNamespaceCleanupRequest) :
    Holds hash
      (fun key => if request.routeId.any fun routeId => inRouteNamespace request routeId key
        then none else map key)
      (l1CleanupRouteNamespace l1 request).1 := by
  unfold l1CleanupRouteNamespace
  cases request.routeId with
  | none => exact h
  | some routeId =>
    apply h.sub
    intro s i entry hent
    unfold L1Cache.table cleanSlots at hent ⊢
    by_cases hclean : cleanedSlot request routeId ((l1 s).slots i)
    · simp only [hclean, if_true] at hent
      cases hent
    · simp only [hclean, Bool.false_eq_true, if_false] at hent ⊢
      refine ⟨trivial, if_neg ?_⟩
      obtain ⟨huse, rfl⟩ := content_eq_some.mp hent
      simpa [cleanedSlot, huse] using hclean

/-! ## Runs -/

variable (hash) in
def l1Step (l1 : L1Cache) : L1Op → L1Cache × L1Answer
  | .put entry bodyPresent => (l1Put hash l1 entry bodyPresent, .none)
  | .putIfNewer entry bodyPresent =>
    let (l1, stored) := l1PutIfNewer hash l1 entry bodyPresent
    (l1, .stored stored)
  | .get key nowMs bodyOutCapacity =>
    (l1, .found (l1Get hash l1 key nowMs bodyOutCapacity))
  | .remove key =>
    let (l1, result) := l1Remove hash l1 key
    (l1, .removed result)
  | .cleanup request =>
    let (l1, result) := l1CleanupRouteNamespace l1 request
    (l1, .cleaned result)

variable (hash) in
/-- The cache after a sequence of calls, with the calls and their answers. -/
def l1Run (ops : List L1Op) : L1Cache × List L1Event :=
  Calls.run (l1Step hash) l1Init ops

theorem Holds.step (h : Holds hash map l1) {op : L1Op} (hfits : op.KeyFits) :
    Holds hash (recordEvent map (op, (l1Step hash l1 op).2)) (l1Step hash l1 op).1 := by
  cases op with
  | put entry bodyPresent =>
    unfold recordEvent l1Step l1Put accepted
    by_cases hstore : l1CanStoreEntry entry bodyPresent
    · simp only [hstore, if_true]
      exact h.store hstore hfits
    · simp only [hstore]
      exact h
  | putIfNewer =>
    unfold l1Step l1PutIfNewer
    dsimp only
    split
    next hstore =>
      split
      · exact h
      · exact h.store hstore hfits
    · exact h
  | get => exact h
  | remove key => exact h.remove key
  | cleanup request => exact h.cleanup request

/-- After any sequence of calls the slots hold a part of the map of these calls. -/
theorem holds_run {ops : List L1Op} (hfits : ∀ op ∈ ops, op.KeyFits) :
    Holds hash (acceptedFor (l1Run hash ops).2) (l1Run hash ops).1 := by
  have hguard : Calls.Along (l1Step hash) (fun _ op => op.KeyFits) l1Init ops :=
    Calls.along_of_forall fun op hop _ => hfits op hop
  refine Calls.run_invariant (P := fun l1 history => Holds hash (acceptedFor history) l1)
    ?_ hguard holds_init
  intro l1 history op hop h
  rw [acceptedFor_append]
  exact h.step hop

section Get

variable {key : Text} {nowMs : Int64} {bodyOutCapacity : Nat} {found : CacheEntry}
  (h : Holds hash map l1) (hget : l1Get hash l1 key nowMs bodyOutCapacity = some found)

include h hget

/-- What is found is a copy of an entry with the key. -/
theorem Holds.get_slot : ∃ i entry,
    (l1.table (l1ShardOf hash key) i).content = some entry ∧ entry.key = key ∧
      copyOut entry bodyOutCapacity = found ∧ (0 < nowMs && isExpired entry nowMs) = false := by
  obtain ⟨i, hscan, rfl⟩ := map_eq_some_iff.mp hget
  have hslot := scan_some hscan
  rw [Bool.and_eq_true, Bool.not_eq_true'] at hslot
  obtain ⟨entry, hcont, hkey⟩ := (h.lookup_iff _ i key).mp hslot.1
  obtain ⟨-, rfl⟩ := content_eq_some.mp hcont
  exact ⟨i, _, hcont, hkey, rfl, hslot.2⟩

/-- Looking a key up gives what the map has for it, if anything. -/
theorem Holds.get (hnow : 0 < nowMs) (hcapacity : kL1MaxBodySize ≤ bodyOutCapacity) :
    map key = some found ∧ (found.expiresAtEpochMs = 0 ∨ nowMs < found.expiresAtEpochMs) := by
  obtain ⟨i, entry, hcont, rfl, rfl, hexp⟩ := h.get_slot hget
  have hbody := (h.fits _ i entry hcont).2
  have hcopy : copyOut entry bodyOutCapacity = entry := by
    unfold copyOut
    rw [take_of_length_le (by omega)]
  rw [decide_eq_true hnow, Bool.true_and] at hexp
  rw [hcopy]
  refine ⟨h.current _ i entry hcont, ?_⟩
  simpa [isExpired, imp_iff_or_not, or_comm] using hexp

end Get

/-- The map specification of the cache: after any sequence of calls, what a lookup finds is the entry
    of the last call that put an entry with just that key into the cache, the key was not removed
    later, and the entry is not expired; and no key is in two slots in use. -/
theorem l1_meets_map_spec (hash : Text → UInt64) (ops : List L1Op)
    (hfits : ∀ op ∈ ops, op.KeyFits) :
    (∀ key nowMs bodyOutCapacity found, 0 < nowMs → kL1MaxBodySize ≤ bodyOutCapacity →
      l1Get hash (l1Run hash ops).1 key nowMs bodyOutCapacity = some found →
        found.key = key ∧ LastAccepted (l1Run hash ops).2 found ∧
          (found.expiresAtEpochMs = 0 ∨ nowMs < found.expiresAtEpochMs)) ∧
      ∀ s s' i i', (((l1Run hash ops).1 s).slots i).inUse = true →
        (((l1Run hash ops).1 s').slots i').inUse = true →
          (((l1Run hash ops).1 s).slots i).entry.key =
            (((l1Run hash ops).1 s').slots i').entry.key → s = s' ∧ i = i' := by
  have h : Holds hash _ _ := holds_run hfits
  constructor
  · intro key nowMs bodyOutCapacity found hnow hcapacity hget
    obtain ⟨hacc, hexp⟩ := h.get hget hnow hcapacity
    obtain ⟨hkey, hlast⟩ := lastAccepted_of_acceptedFor hacc
    exact ⟨hkey, hlast, hexp⟩
  · intro s s' i i' huse huse' hkey
    obtain ⟨hs, hi, -⟩ := h.keyed.ext (content_eq_some.mpr ⟨huse, rfl⟩)
      (content_eq_some.mpr ⟨huse', rfl⟩) hkey
    exact ⟨hs, hi⟩

/-- With one hash for all keys, an entry that was put over an older one, next to an entry with another
    key, is found. -/
theorem l1_meets_map_spec_collision :
    LastAccepted (l1Run (fun _ => 0)
      [.put { key := lit "a", body := lit "1" } true, .put { key := lit "b" } true,
        .put { key := lit "a", body := lit "2" } true]).2 { key := lit "a", body := lit "2" } :=
  ((l1_meets_map_spec (fun _ => 0)
    [.put { key := lit "a", body := lit "1" } true, .put { key := lit "b" } true,
      .put { key := lit "a", body := lit "2" } true]
    (by decide +kernel)).1 (lit "a") 1 kL1MaxBodySize { key := lit "a", body := lit "2" }
    (by decide) (Nat.le_refl _) (by decide +kernel)).2.1

end Hash

end ByteTaper.Cache
