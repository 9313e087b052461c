import ByteTaper.Coalescing.FollowerWait
import ByteTaper.Coalescing.LeaderGenerations

/-! # The waiters of an entry

The number of waiters of an entry is the number of its followers that have not deregistered, as long as
two things do not happen. A follower that finds its leader's response too large for a hand-off
deregisters twice, and takes another follower out that way. And a request that leads again starts with
no waiters although the followers of the leader before are still there, and take themselves out of the
new entry later, since an entry is found by its key. -/

namespace ByteTaper.Coalescing

open Policy List Option ShardedSlots InFlightEntry Follower RegistryOp
open Transition (System)

/-! ## Conditions on a step -/

/-- No request takes over an entry that has waiters, no response is too large for a hand-off, and the
    requests for a key allow no more waiters than a limit. -/
def StepAccounted (hash : Text → UInt64) (limit : Text → UInt32) (s : CoalescingState) :
    CoalescingStep → Prop
  | .request request => ∀ key ∈ buildCoalescingKey request,
      request.policy.coalescing.maxWaitersPerKey ≤ limit key ∧
      ∀ j, (s.registry.table (shardOf hash key) j).isFor key = true →
        0 < (s.registry.table (shardOf hash key) j).waiterCount →
          leadsAgain (s.registry.table (shardOf hash key) j) request.nowMs
            request.policy.coalescing.backendTimeoutMs = false
  | .complete _ _ state _ => state ≠ .tooLargeForHandoff
  | .follow _ _ | .timeout _ => True

instance (hash : Text → UInt64) (limit : Text → UInt32) (s : CoalescingState) :
    DecidablePred (StepAccounted hash limit s)
  | .request request => inferInstanceAs (Decidable (∀ key ∈ buildCoalescingKey request, _))
  | .complete _ _ state _ => inferInstanceAs (Decidable (state ≠ .tooLargeForHandoff))
  | .follow _ _ | .timeout _ => inferInstanceAs (Decidable True)

/-! ## The invariant -/

/-- A follower calls `registry_remove_waiter` once, when it leaves. -/
def Follower.Balanced (f : Follower) : Prop :=
  match f.pc with
  | .exitWait result | .woken result => f.removeCalls = 0 ∧ result ≠ .tooLargeForHandoff
  | .leaving exit => f.removeCalls + exit.removes = 1
  | .done _ => f.removeCalls = 1
  | _ => f.removeCalls = 0

/-- The table of the slots and the followers fit together. -/
structure TableAccounted (hash : Text → UInt64) (limit : Text → UInt32)
    (table : ShardedSlots.Table kInFlightShards kSlotsPerShard InFlightEntry)
    (followers : List Follower) : Prop where
  keyed : Keyed hash table
  noHandoff : ∀ s j, (table s j).state ≠ .tooLargeForHandoff
  counted : ∀ s j, (table s j).active = true → (table s j).waiterCount.toNat =
    registeredFollowers followers (table s j).key (table s j).lifecycleGeneration
  limited : ∀ s j, (table s j).active = true → (table s j).waiterCount ≤ limit (table s j).key
  present : ∀ f ∈ followers, f.removeCalls = 0 →
    ∃ j, (table (shardOf hash f.key) j).isFor f.key = true ∧
      (table (shardOf hash f.key) j).lifecycleGeneration = f.generation

structure Accounted (hash : Text → UInt64) (limit : Text → UInt32)
    (s : CoalescingState) : Prop where
  table : TableAccounted hash limit s.registry.table s.followers
  balanced : ∀ f ∈ s.followers, f.Balanced

/-! ## Counting followers -/

def Follower.waitsFor (f : Follower) (key : Text) (generation : UInt64) : Bool :=
  f.removeCalls == 0 && f.key == key && f.generation == generation

theorem registeredFollowers_eq (followers : List Follower) (key : Text) (generation : UInt64) :
    registeredFollowers followers key generation =
      followers.countP (·.waitsFor key generation) := rfl

theorem Follower.waitsFor_iff {f : Follower} {key : Text} {generation : UInt64} :
    f.waitsFor key generation ↔ f.removeCalls = 0 ∧ f.key = key ∧ f.generation = generation := by
  simp [waitsFor, and_assoc]

variable {followers : List Follower}

section Hash

variable {hash : Text → UInt64} {limit : Text → UInt32}
  {table : ShardedSlots.Table kInFlightShards kSlotsPerShard InFlightEntry}
  {followers : List Follower} {f f' : Follower} {j : Fin kSlotsPerShard} {entry : InFlightEntry}
  {followers' : List Follower} {key : Text} {i : Nat} {maxWaitersPerKey : UInt32}
  {generation : UInt64} {answer : Option RegistryRegistrationResult} {registry : InFlightRegistry}
  {result : RegistryWaitResult} {lookups : LookupOutcomes} {s t : CoalescingState}
  {a : CoalescingStep}

section

variable (h : TableAccounted hash limit table followers) (hf : f ∈ followers)
  (hcalls : f.removeCalls = 0) (hfor : (table (shardOf hash f.key) j).isFor f.key = true)

include h hf hcalls hfor

/-- The registered followers of a key all follow its active entry. -/
theorem TableAccounted.generation_eq :
    f.generation = (table (shardOf hash f.key) j).lifecycleGeneration := by
  obtain ⟨j', hfor', hgen⟩ := h.present f hf hcalls
  rw [h.keyed.eq_of_isFor hfor hfor', hgen]

/-- An entry without waiters has no registered followers. -/
theorem TableAccounted.no_follower (hwait : (table (shardOf hash f.key) j).waiterCount = 0) :
    False := by
  have hent := isFor_iff.mp hfor
  have hcnt := h.counted (shardOf hash f.key) j hent.1
  rw [hwait, hent.2, ← h.generation_eq hf hcalls hfor] at hcnt
  exact countP_eq_zero.mp hcnt.symm f hf (waitsFor_iff.mpr ⟨hcalls, rfl, rfl⟩)

end

/-- A slot is written and followers come or go: the new entry has to fit, the followers of the other
    entries stay, and every registered follower still finds its entry. -/
theorem TableAccounted.set (h : TableAccounted hash limit table followers)
    {s} (hkeyed : Keyed hash (ShardedSlots.set table s j entry))
    (hstate : entry.state ≠ .tooLargeForHandoff) (hlimit : entry.waiterCount ≤ limit entry.key)
    (hcnt : entry.waiterCount.toNat =
      registeredFollowers followers' entry.key entry.lifecycleGeneration)
    (hothers : ∀ s' i, (s' = s → i ≠ j) → (table s' i).active →
      registeredFollowers followers' (table s' i).key (table s' i).lifecycleGeneration =
        registeredFollowers followers (table s' i).key (table s' i).lifecycleGeneration)
    (hpresent : ∀ f ∈ followers', f.removeCalls = 0 → ∃ i,
      (ShardedSlots.set table s j entry (shardOf hash f.key) i).isFor f.key ∧
        (ShardedSlots.set table s j entry (shardOf hash f.key) i).lifecycleGeneration =
          f.generation) :
    TableAccounted hash limit (ShardedSlots.set table s j entry) followers' := by
  have hslot := set_cases table s j entry
  refine ⟨hkeyed, ?_, ?_, ?_, hpresent⟩
  · intro s' i
    rcases hslot s' i with ⟨-, -, heq⟩ | ⟨-, heq⟩ <;> rw [heq]
    · exact hstate
    · exact h.noHandoff s' i
  · intro s' i
    rcases hslot s' i with ⟨-, -, heq⟩ | ⟨hother, heq⟩ <;> rw [heq]
    · exact fun _ => hcnt
    · intro hact
      rw [hothers s' i hother hact]
      exact h.counted s' i hact
  · intro s' i
    rcases hslot s' i with ⟨-, -, heq⟩ | ⟨-, heq⟩ <;> rw [heq]
    · exact fun _ => hlimit
    · exact h.limited s' i

section

variable (h : TableAccounted hash limit table followers)
  (hkeyed : Keyed hash (ShardedSlots.set table (shardOf hash key) j entry))

include h hkeyed

/-- A slot that is given to a key which no follower waits for starts without waiters. -/
theorem TableAccounted.set_leader (hkey : entry.key = key) (hstate : entry.state = .inFlight)
    (hwait : entry.waiterCount = 0) (hnone : ∀ f ∈ followers, f.removeCalls = 0 → f.key ≠ key)
    (hfree : ∀ f ∈ followers, f.removeCalls = 0 → shardOf hash f.key = shardOf hash key →
        (table (shardOf hash f.key) j).isFor f.key = false) :
    TableAccounted hash limit (ShardedSlots.set table (shardOf hash key) j entry) followers := by
  refine h.set hkeyed (by rw [hstate]; exact nofun) (by rw [hwait]; exact UInt32.zero_le) ?_
    (fun _ _ _ _ => rfl) fun f hf hcalls => ?_
  · rw [hwait, hkey, registeredFollowers_eq, countP_eq_zero.mpr]
    · rfl
    · intro f hf hwaits
      obtain ⟨hcalls, hfkey, -⟩ := waitsFor_iff.mp hwaits
      exact hnone f hf hcalls hfkey
  · obtain ⟨j', hfor, hgen⟩ := h.present f hf hcalls
    refine ⟨j', ?_⟩
    rw [set_other]
    · exact ⟨hfor, hgen⟩
    · rintro hs rfl
      rw [hfree f hf hcalls hs] at hfor
      cases hfor

/-- The active entry of a key is changed, and only followers of that key come or go. -/
theorem TableAccounted.set_entry (hfor : (table (shardOf hash key) j).isFor key)
    (hent : entry.isFor key)
    (hgen : entry.lifecycleGeneration =
      (table (shardOf hash key) j).lifecycleGeneration) (hstate : entry.state ≠ .tooLargeForHandoff)
    (hlimit : entry.waiterCount ≤ limit key)
    (hcnt : entry.waiterCount.toNat = registeredFollowers followers' key entry.lifecycleGeneration)
    (hothers : ∀ key' generation, key' ≠ key → registeredFollowers followers' key' generation =
        registeredFollowers followers key' generation)
    (hpresent : ∀ f ∈ followers', f.removeCalls = 0 →
      (f.key = key ∧ f.generation = entry.lifecycleGeneration) ∨ f ∈ followers) :
    TableAccounted hash limit (ShardedSlots.set table (shardOf hash key) j entry) followers' := by
  have hslot := isFor_iff.mp hfor
  obtain rfl := (isFor_iff.mp hent).2
  refine h.set hkeyed hstate hlimit hcnt (fun s i hother hact => ?_) fun f hf hcalls => ?_
  · -- the key has one active entry
    refine hothers _ _ fun hkey => ?_
    obtain ⟨hs, hi, -⟩ := h.keyed.ext (content_eq_some.mpr ⟨hact, rfl⟩)
      (content_eq_some.mpr ⟨hslot.1, rfl⟩) (hkey.trans hslot.2.symm)
    exact hother hs hi
  · rcases hpresent f hf hcalls with ⟨hfkey, hfgeneration⟩ | hf
    · refine ⟨j, ?_⟩
      rw [hfkey, set_same]
      exact ⟨hent, hfgeneration.symm⟩
    · obtain ⟨j', hfor', hgen'⟩ := h.present f hf hcalls
      refine ⟨j', ?_⟩
      rcases set_cases table (shardOf hash entry.key) j entry
        (shardOf hash f.key) j' with ⟨hs, rfl, heq⟩ | ⟨-, heq⟩ <;> rw [heq]
      · rw [hs] at hfor' hgen'
        rw [← (isFor_iff.mp hfor').2, hslot.2]
        exact ⟨hent, hgen.trans hgen'⟩
      · exact ⟨hfor', hgen'⟩

end

/-- A follower goes on in its program without leaving the registry. -/
theorem registeredFollowers_set (hi : followers[i]? = some f)
    (hwaits : ∀ key generation, f'.waitsFor key generation = f.waitsFor key generation)
    (key : Text) (generation : UInt64) :
    registeredFollowers (followers.set i f') key generation =
      registeredFollowers followers key generation := by
  obtain ⟨hlt, rfl⟩ := List.getElem?_eq_some_iff.mp hi
  rw [registeredFollowers_eq, registeredFollowers_eq, List.countP_set hlt, hwaits]
  have hle : (if followers[i].waitsFor key generation then 1 else 0) ≤
      followers.countP (·.waitsFor key generation) := by
    split
    next hwaits => exact countP_pos_iff.mpr ⟨_, getElem_mem hlt, hwaits⟩
    · exact Nat.zero_le _
  omega

theorem TableAccounted.follow (h : TableAccounted hash limit table followers)
    (hi : followers[i]? = some f) (hkey : f'.key = f.key)
    (hgen : f'.generation = f.generation) (hcalls : f'.removeCalls = f.removeCalls) :
    TableAccounted hash limit table (followers.set i f') := by
  have hcnt : ∀ key generation, registeredFollowers (followers.set i f') key generation =
      registeredFollowers followers key generation :=
    registeredFollowers_set hi fun key generation => by
      simp [waitsFor, hkey, hgen, hcalls]
  refine ⟨h.keyed, h.noHandoff, ?_, h.limited, ?_⟩
  · intro s j hact
    rw [hcnt]
    exact h.counted s j hact
  · intro g hg hgcalls
    rcases mem_or_eq_of_mem_set hg with hg | rfl
    · exact h.present g hg hgcalls
    · rw [hkey, hgen]
      exact h.present f (mem_of_getElem? hi) (hcalls ▸ hgcalls)

/-! ## Registering -/

variable {table' : ShardedSlots.Table kInFlightShards kSlotsPerShard InFlightEntry}

/-- The followers after a request was registered. -/
def joined (followers : List Follower) (policy : RoutePolicy) (key : Text)
    (result : RegistryRegistrationResult) : List Follower :=
  if result.role = .follower then
    followers ++ [{ policy, key, generation := result.lifecycleGeneration }]
  else followers

theorem registeredFollowers_append (followers : List Follower) (policy : RoutePolicy)
    (key key' : Text) (generation generation' : UInt64) :
    registeredFollowers (followers ++ [{ policy := policy, key, generation }]) key' generation' =
      registeredFollowers followers key' generation' +
        if key = key' ∧ generation = generation' then 1 else 0 := by
  rw [registeredFollowers_eq, registeredFollowers_eq, countP_append, countP_singleton]
  congr 1
  simp [waitsFor]

section

variable (h : TableAccounted hash limit table followers) (policy : RoutePolicy)
  (hlimit : maxWaitersPerKey ≤ limit key)

include h hlimit

/-- A follower joins an entry that has room for it. -/
theorem TableAccounted.join (hkeyed : Keyed hash (ShardedSlots.set table (shardOf hash key) j
      { table (shardOf hash key) j with
        waiterCount := (table (shardOf hash key) j).waiterCount + 1 }))
    (hfor : (table (shardOf hash key) j).isFor key)
    (hroom : (table (shardOf hash key) j).waiterCount < maxWaitersPerKey) :
    TableAccounted hash limit (ShardedSlots.set table (shardOf hash key) j
        { table (shardOf hash key) j with
          waiterCount := (table (shardOf hash key) j).waiterCount + 1 })
      (followers ++ [{ policy := policy, key, generation :=
        (table (shardOf hash key) j).lifecycleGeneration }]) := by
  have hslot := isFor_iff.mp hfor
  have hcnt := h.counted _ j hslot.1
  -- the counter does not wrap, because there is room below the limit
  have hsucc : ((table (shardOf hash key) j).waiterCount + 1).toNat =
      (table (shardOf hash key) j).waiterCount.toNat + 1 := by
    have hlt := UInt32.lt_iff_toNat_lt.mp hroom
    have hmax := maxWaitersPerKey.toNat_lt
    rw [UInt32.toNat_add]
    have : (1 : UInt32).toNat = 1 := rfl
    omega
  refine h.set_entry hkeyed hfor (isFor_iff.mpr hslot) rfl (h.noHandoff _ j) ?_ ?_ ?_ ?_
  · refine UInt32.le_trans ?_ hlimit
    rw [UInt32.le_iff_toNat_le, hsucc]
    exact UInt32.lt_iff_toNat_lt.mp hroom
  · rw [registeredFollowers_append, if_pos ⟨rfl, rfl⟩, hsucc, hcnt, hslot.2]
  · intro key' generation hne
    rw [registeredFollowers_append, if_neg fun heq => hne heq.1.symm, Nat.add_zero]
  · intro f hf _
    rcases mem_append.mp hf with hf | hf
    · exact .inr hf
    · rw [mem_singleton.mp hf]
      exact .inl ⟨rfl, rfl⟩

theorem TableAccounted.register {nowMs : UInt64} {waitWindowMs : UInt32}
    {result} (hfits : key.length < kInFlightKeySize)
    (hwait : ∀ j, (table (shardOf hash key) j).isFor key →
      0 < (table (shardOf hash key) j).waiterCount →
        leadsAgain (table (shardOf hash key) j) nowMs waitWindowMs = false)
    (hchg : TableChange hash table
      (.register key nowMs waitWindowMs maxWaitersPerKey) table' (some result)) :
    TableAccounted hash limit table' (joined followers policy key result) := by
  have hkeyed := hchg.keyed h.keyed hfits
  cases hchg with
  | same _ rejected =>
    rw [rejected result rfl]
    exact h
  | change j _ _ found changed =>
    simp only [RegistryOp.key] at found changed hkeyed ⊢
    have hslot := isFor_iff.mp found
    cases changed with
    | lead _ _ _ _ again =>
      have hwaiters : (table (shardOf hash key) j).waiterCount = 0 := by
        by_contra hne
        rw [hwait j found (UInt32.pos_iff_ne_zero.mpr hne)] at again
        cases again
      have hnone : ∀ f ∈ followers, f.removeCalls = 0 → f.key ≠ key := by
        rintro f hf hcalls rfl
        exact h.no_follower hf hcalls found hwaiters
      apply h.set_leader hkeyed hslot.2 rfl rfl hnone
      intro f hf hcalls hs
      rw [Bool.eq_false_iff]
      intro hfor
      rw [hs] at hfor
      exact hnone f hf hcalls ((isFor_iff.mp hfor).2.symm.trans hslot.2)
    | join _ _ _ _ room =>
      exact h.join policy hlimit hkeyed found room
  | take _ _ _ _ _ registers absent reusable =>
    cases registers
    have hnone : ∀ f ∈ followers, f.removeCalls = 0 → f.key ≠ key := by
      rintro f hf hcalls rfl
      obtain ⟨j', hfor, -⟩ := h.present f hf hcalls
      rw [absent j'] at hfor
      cases hfor
    apply h.set_leader hkeyed (keyCopy_eq hfits) rfl rfl hnone
    intro f hf hcalls hs
    rw [Bool.eq_false_iff]
    intro hfor
    rw [← hs] at reusable
    rcases reusable_cases reusable with hexpired | hfree
    · simp only [terminalEntryExpired, Bool.and_eq_true, Bool.not_eq_true',
        decide_eq_false_iff_not, UInt32.not_lt] at hexpired
      exact h.no_follower hf hcalls hfor (UInt32.le_zero_iff.mp hexpired.1.2)
    · rw [(isFor_iff.mp hfor).1] at hfree
      cases hfree

end

/-! ## Completing and deregistering -/

theorem TableAccounted.complete (h : TableAccounted hash limit table followers)
    {state} {nowMs : UInt64} (hstate : state ≠ .tooLargeForHandoff)
    (hchg : TableChange hash table
      (.completeStateIfGeneration key generation state nowMs) table' answer) :
    TableAccounted hash limit table' followers := by
  have hkeyed := hchg.keyed h.keyed trivial
  cases hchg with
  | same => exact h
  | change j _ _ found changed =>
    have hslot := isFor_iff.mp found
    cases changed with
    | complete _ _ _ _ completes =>
      cases completes
      have hlimited := h.limited _ j hslot.1
      have hcnt := h.counted _ j hslot.1
      rw [hslot.2] at hlimited hcnt
      exact h.set_entry hkeyed found (isFor_iff.mpr hslot) rfl hstate hlimited
        hcnt (fun _ _ _ => rfl) fun f hf _ => .inr hf
  | take _ _ _ _ _ registers => cases registers

/-- An entry with waiters has one less after a deregistration. -/
theorem removeWaiter_table (h : Keyed hash registry.table)
    (hfor : (registry.table (shardOf hash key) j).isFor key)
    (hwaits : 0 < (registry.table (shardOf hash key) j).waiterCount) :
    (registryRemoveWaiter hash registry key).table =
      ShardedSlots.set registry.table (shardOf hash key) j
        { registry.table (shardOf hash key) j with
          waiterCount := (registry.table (shardOf hash key) j).waiterCount - 1 } := by
  unfold registryRemoveWaiter updateEntry
  cases hfound : findSlot hash registry key with
  | none =>
    rw [findSlot_none hfound j] at hfor
    cases hfor
  | some =>
    obtain rfl := h.eq_of_isFor hfor (findSlot_some hfound)
    have hwaits : 0 < ((registry.shards (shardOf hash key)).slots j).waiterCount := hwaits
    dsimp only
    rw [if_pos hwaits]
    rw [table_setSlot]
    rfl

theorem TableAccounted.leave (h : TableAccounted hash limit registry.table followers)
    (hi : followers[i]? = some f) (hcalls : f.removeCalls = 0) (hcalls' : f'.removeCalls ≠ 0) :
    TableAccounted hash limit
      (registryRemoveWaiter hash registry f.key).table (followers.set i f') := by
  obtain ⟨j, hfor, hgen⟩ := h.present f (mem_of_getElem? hi) hcalls
  have hslot := isFor_iff.mp hfor
  have hcnt := h.counted _ j hslot.1
  rw [hslot.2, hgen] at hcnt
  obtain ⟨hlt, hget⟩ := List.getElem?_eq_some_iff.mp hi
  have hpos : 0 < registeredFollowers followers f.key f.generation :=
    countP_pos_iff.mpr ⟨f, mem_of_getElem? hi, waitsFor_iff.mpr ⟨hcalls, rfl, rfl⟩⟩
  have hwaits : 0 < (registry.table (shardOf hash f.key) j).waiterCount := by
    rw [UInt32.lt_iff_toNat_lt, hcnt]
    exact hpos
  have hset : ∀ key generation, registeredFollowers (followers.set i f') key generation =
      registeredFollowers followers key generation -
        if f.key = key ∧ f.generation = generation then 1 else 0 := by
    intro key generation
    rw [registeredFollowers_eq, registeredFollowers_eq, List.countP_set hlt, hget]
    simp [waitsFor, hcalls, hcalls']
  have hkeyed : Keyed hash (registryRemoveWaiter hash registry f.key).table := by
    have hop : (removeWaiter f.key).KeyFits := trivial
    exact (registryStep_change registry hop).keyed h.keyed hop
  rw [removeWaiter_table h.keyed hfor hwaits] at hkeyed ⊢
  have hle : (1 : UInt32) ≤ (registry.table (shardOf hash f.key) j).waiterCount := by
    exact UInt32.lt_iff_toNat_lt.mp hwaits
  have hsub := UInt32.toNat_sub_of_le _ _ hle
  refine h.set_entry hkeyed hfor (isFor_iff.mpr hslot) rfl (h.noHandoff _ j) ?_ ?_ ?_ ?_
  · refine UInt32.le_trans ?_ (hslot.2 ▸ h.limited _ j hslot.1)
    rw [UInt32.le_iff_toNat_le, hsub]
    exact Nat.sub_le _ _
  · rw [hsub, hcnt, hset, hgen, if_pos ⟨rfl, rfl⟩]
    rfl
  · intro key' generation hne
    rw [hset, if_neg fun heq => hne heq.1.symm, Nat.sub_zero]
  · intro g hg hgcalls
    rcases mem_or_eq_of_mem_set hg with hg | rfl
    · exact .inr hg
    · exact absurd hgcalls hcalls'

/-! ## Every step keeps it -/

/-- What a follower reads off an entry is that its response is too large only if the entry says so. -/
theorem terminalResult_ne (h : entry.state ≠ .tooLargeForHandoff)
    (hres : terminalResult entry = some result) : result ≠ .tooLargeForHandoff := by
  rintro rfl
  unfold terminalResult at hres
  cases hstate : entry.state <;> simp only [hstate] at hres
  case stored => split at hres <;> cases hres
  case tooLargeForHandoff => exact h hstate
  all_goals cases hres

section

variable {P : RegistryWaitResult → Prop} (hmissing : P .missing) (hexpired : P .expired)

include hmissing hexpired

/-- A follower whose entry is not gone gets what the entry tells. -/
theorem waitStart_result
    (h : ∀ j r, terminalResult (registry.table (shardOf hash key) j) = some r → P r)
    (hstart : waitStart hash registry key generation = .result result) : P result := by
  unfold waitStart at hstart
  dsimp only at hstart
  split at hstart
  · cases hstart
    exact hmissing
  next j _ =>
    split at hstart
    · cases hstart
      exact hexpired
    · split at hstart
      next hres =>
        cases hstart
        exact h j _ hres
      · cases hstart

theorem waitWake_result (h : ∀ r, terminalResult entry = some r → P r)
    (hwake : waitWake entry generation = some result) : P result := by
  unfold waitWake at hwake
  dsimp only at hwake
  split at hwake
  · cases hwake
    split
    · exact hexpired
    · exact hmissing
  · exact h _ hwake

end

/-- Every way out of the stage has one deregistration, but for the one after `TooLargeForHandoff`. -/
theorem stageLeave_removes (lookups : LookupOutcomes) (h : result ≠ .tooLargeForHandoff) :
    (stageLeave result lookups).removes = 1 := by
  have hprobe : ∀ note, ((lookups.l2.hitOutput.map exitWith).getD (fallback note)).removes = 1 := by
    intro note
    cases lookups.l2.hitOutput <;> rfl
  have hl1 : ∀ note, (l1OrFallback lookups note).removes = 1 := by
    intro note
    unfold l1OrFallback
    split <;> rfl
  unfold stageLeave
  cases result <;> dsimp only
  case tooLargeForHandoff => exact absurd rfl h
  case l2Ready => exact hprobe _
  case timeout =>
    split
    · rfl
    unfold finalCacheProbe
    split
    · rfl
    · exact hprobe _
  case sharedResponseReady => rfl
  all_goals
    split
    · rfl
    · first
        | rfl
        | exact hl1 _

theorem stageEntry_cases {policy : RoutePolicy} {exit : StageExit}
    (h : stageEntry policy = some exit) :
    exit = fallback "cache-disabled-bypassed" ∨ exit = fallback "guardrail-budget-exceeded" := by
  unfold stageEntry at h
  dsimp only at h
  split at h
  · cases h
    exact .inl rfl
  · split at h
    · cases h
      exact .inr rfl
    · cases h

/-- A step of a follower takes it out of the registry, or changes nothing there but the numbers of
    active waiters; in both cases it stays balanced. -/
theorem followerStep_cases {registry' : InFlightRegistry}
    (h : ∀ s j, (registry.table s j).state ≠ .tooLargeForHandoff) (hbal : f.Balanced)
    (hstep : followerStep hash registry f lookups = some (registry', f')) :
    f'.Balanced ∧ f'.key = f.key ∧ f'.generation = f.generation ∧
      ((registry'.table = registry.table ∧ f'.removeCalls = f.removeCalls) ∨
        (registry' = registryRemoveWaiter hash registry f.key ∧ f.removeCalls = 0 ∧
          f'.removeCalls = 1)) := by
  unfold Follower.Balanced at hbal
  unfold followerStep at hstep
  dsimp only at hstep
  cases hpc : f.pc <;> simp only [hpc] at hstep hbal
  case start =>
    split at hstep
    next exit hent =>
      cases hstep
      refine ⟨?_, rfl, rfl, .inl ⟨rfl, rfl⟩⟩
      rcases stageEntry_cases hent with rfl | rfl <;>
        simp [Follower.Balanced, hbal, fallback]
    · cases hstep
      exact ⟨hbal, rfl, rfl, .inl ⟨rfl, rfl⟩⟩
  case guardGlobal | guardShard | l1Before =>
    -- the follower leaves here, or goes on
    split at hstep
    · cases hstep
      refine ⟨?_, rfl, rfl, .inl ⟨rfl, rfl⟩⟩
      simp [Follower.Balanced, hbal, fallback, exitWith]
    · cases hstep
      exact ⟨hbal, rfl, rfl, .inl ⟨rfl, rfl⟩⟩
  case enterWait =>
    cases hstep
    exact ⟨hbal, rfl, rfl, .inl ⟨addWaiters_table registry f.key 1, rfl⟩⟩
  case beginWait =>
    cases hstep
    cases hstart : waitStart hash registry f.key f.generation with
    | result =>
      have hne := waitStart_result (P := (· ≠ .tooLargeForHandoff)) (by decide) (by decide)
        (fun j _ => terminalResult_ne (h _ j)) hstart
      exact ⟨⟨hbal, hne⟩, rfl, rfl, .inl ⟨rfl, rfl⟩⟩
    | blocked => exact ⟨hbal, rfl, rfl, .inl ⟨rfl, rfl⟩⟩
  case blocked j =>
    obtain ⟨result, hwake, hstep⟩ := map_eq_some_iff.mp hstep
    cases hstep
    have hne := waitWake_result (P := (· ≠ .tooLargeForHandoff)) (by decide) (by decide)
      (fun _ => terminalResult_ne (h (shardOf hash f.key) j)) hwake
    exact ⟨⟨hbal, hne⟩, rfl, rfl, .inl ⟨rfl, rfl⟩⟩
  case exitWait =>
    obtain ⟨rfl, rfl⟩ := Prod.mk.inj (Option.some.inj hstep)
    refine ⟨hbal, rfl, rfl, .inl ⟨?_, rfl⟩⟩
    unfold registryExitWait
    rw [addWaiters_table]
  case woken =>
    cases hstep
    refine ⟨?_, rfl, rfl, .inl ⟨rfl, rfl⟩⟩
    simp [Follower.Balanced, hbal.1, stageLeave_removes lookups hbal.2]
  case leaving =>
    -- one call of `registry_remove_waiter` is left, and only one
    split at hstep
    next hrem =>
      cases hstep
      refine ⟨?_, rfl, rfl, .inl ⟨rfl, rfl⟩⟩
      simpa [Follower.Balanced, hrem] using hbal
    next removes hrem =>
      cases hstep
      obtain ⟨hcalls, rfl⟩ : f.removeCalls = 0 ∧ removes = 0 := by omega
      exact ⟨by simp [Follower.Balanced, hcalls], rfl, rfl, .inr ⟨rfl, hcalls, by simp [hcalls]⟩⟩
  case done =>
    cases hstep

section

variable {request : CoalescingRequest} (h : buildCoalescingKey request = some key)

include h

theorem buildCoalescingKey_eq : key.length < kInFlightKeySize ∧
      ∃ routeName, request.policy.routeId = some routeName ∧
        key = lit "c_key:" ++ routeName ++ lit ":0:" ++ request.rawPath ++ lit "?" ++
          request.rawQuery ++ lit "&fields=" := by
  unfold buildCoalescingKey at h
  dsimp only at h
  split at h
  · cases h
  rename_i routeName hroute
  split at h
  next hfits =>
    cases h
    exact ⟨hfits, routeName, hroute, rfl⟩
  · cases h

theorem buildCoalescingKey_length : key.length < kInFlightKeySize :=
  (buildCoalescingKey_eq h).1

end

/-- A request is not registered and does not follow, or it is registered with its key. -/
theorem evaluateCoalescingDecision_cases (registry : InFlightRegistry)
    (request : CoalescingRequest) :
    ((evaluateCoalescingDecision hash registry request).1 = registry ∧
        (evaluateCoalescingDecision hash registry request).2.action = .bypass) ∨
      ∃ key, buildCoalescingKey request = some key ∧
        evaluateCoalescingDecision hash registry request =
          ((registryRegister hash registry key request.nowMs
              request.policy.coalescing.backendTimeoutMs
              request.policy.coalescing.maxWaitersPerKey).1,
            decisionOf key (registryRegister hash registry key request.nowMs
              request.policy.coalescing.backendTimeoutMs
              request.policy.coalescing.maxWaitersPerKey).2) := by
  unfold evaluateCoalescingDecision
  dsimp only
  iterate 4
    split
    · exact .inl ⟨rfl, rfl⟩
  next key hkey => exact .inr ⟨key, hkey, rfl⟩

theorem decisionOf_follower (key : Text) (result : RegistryRegistrationResult) :
    (decisionOf key result).action = .follower ↔ result.role = .follower := by
  unfold decisionOf
  cases result.role <;> simp

section

variable (h : Accounted hash limit s)

include h

theorem Accounted.request {request : CoalescingRequest}
    (hguard : StepAccounted hash limit s (.request request))
    (hstep : coalescingStep hash s (.request request) = some t) : Accounted hash limit t := by
  simp only [coalescingStep] at hstep
  rcases evaluateCoalescingDecision_cases s.registry request with
    ⟨hregistry, haction⟩ | ⟨key, hkey, hdec⟩
  · rw [hregistry, haction, if_neg nofun] at hstep
    cases hstep
    exact h
  · obtain ⟨hlimit, hwait⟩ := hguard key hkey
    have hfits := buildCoalescingKey_length hkey
    have htable := h.table.register request.policy hlimit hfits hwait
      (registryRegister_change s.registry request.nowMs
        request.policy.coalescing.backendTimeoutMs request.policy.coalescing.maxWaitersPerKey hfits)
    rw [hdec] at hstep
    generalize hreg : registryRegister hash s.registry key request.nowMs
      request.policy.coalescing.backendTimeoutMs request.policy.coalescing.maxWaitersPerKey =
        registered at hstep htable
    unfold joined at htable
    simp only [decisionOf_follower] at hstep
    split at hstep
    next hrole =>
      cases hstep
      rw [if_pos hrole] at htable
      refine ⟨htable, fun f hf => ?_⟩
      rcases mem_append.mp hf with hf | hf
      · exact h.balanced f hf
      · rw [mem_singleton.mp hf]
        exact rfl
    next hrole =>
      cases hstep
      rw [if_neg hrole] at htable
      exact ⟨htable, h.balanced⟩

theorem Accounted.follow (hstep : coalescingStep hash s (.follow i lookups) = some t) :
    Accounted hash limit t := by
  obtain ⟨f, hi, hstep⟩ := bind_eq_some_iff.mp hstep
  obtain ⟨⟨registry', f'⟩, hfollow, hstep⟩ := map_eq_some_iff.mp hstep
  cases hstep
  obtain ⟨hbal, hkey, hgen, hcases⟩ := followerStep_cases h.table.noHandoff
    (h.balanced f (mem_of_getElem? hi)) hfollow
  constructor
  · rcases hcases with ⟨htable, hcalls⟩ | ⟨rfl, hcalls, hcalls'⟩
    · rw [htable]
      exact h.table.follow hi hkey hgen hcalls
    · exact h.table.leave hi hcalls (by omega)
  · intro g hg
    rcases mem_or_eq_of_mem_set hg with hg | rfl
    · exact h.balanced g hg
    · exact hbal

theorem Accounted.timeout (hstep : coalescingStep hash s (.timeout i) = some t) :
    Accounted hash limit t := by
  obtain ⟨f, hi, hstep⟩ := bind_eq_some_iff.mp hstep
  obtain ⟨f', htime, hstep⟩ := map_eq_some_iff.mp hstep
  cases hstep
  have hbal := h.balanced f (mem_of_getElem? hi)
  unfold Follower.Balanced at hbal
  unfold followerTimeout at htime
  split at htime
  next j hpc =>
    rw [hpc] at hbal
    split at htime
    · cases htime
      refine ⟨h.table.follow hi rfl rfl rfl, fun g hg => ?_⟩
      rcases mem_or_eq_of_mem_set hg with hg | rfl
      · exact h.balanced g hg
      · exact ⟨hbal, nofun⟩
    · cases htime
  · cases htime

theorem Accounted.step (hguard : StepAccounted hash limit s a)
    (hstep : coalescingStep hash s a = some t) : Accounted hash limit t := by
  cases a with
  | request request => exact h.request hguard hstep
  | complete key generation state nowMs =>
    cases hstep
    have hop : (completeStateIfGeneration key generation state nowMs).KeyFits := trivial
    exact ⟨h.table.complete hguard (registryStep_change s.registry hop), h.balanced⟩
  | follow => exact h.follow hstep
  | timeout => exact h.timeout hstep

end

theorem accounted_init : Accounted hash limit {} := by
  have hinit : ∀ s j, registryInit.table s j = {} := fun _ _ => rfl
  refine ⟨⟨keyed_init, ?_, ?_, ?_, ?_⟩, ?_⟩
  · intro s j
    rw [hinit]
    decide
  · intro s j hact
    rw [hinit] at hact
    cases hact
  · intro s j hact
    rw [hinit] at hact
    cases hact
  · intro f hf
    cases hf
  · intro f hf
    cases hf

/-- The invariant holds along every run that meets the conditions. -/
theorem accounted_run (h : (coalescing hash).ReachableUnder (StepAccounted hash limit) s) :
    Accounted hash limit s := by
  refine h.invariant (P := Accounted hash limit) ?_ ?_
  · exact accounted_init
  · intro s a t hs hguard hstep
    exact hs.step hguard hstep

/-! ## An entry with waiters stays -/

/-- The entry in a slot is still there, for the same key and generation. -/
def SameEntry (entry entry' : InFlightEntry) : Prop :=
  entry'.active = true ∧ entry'.key = entry.key ∧
    entry'.lifecycleGeneration = entry.lifecycleGeneration

theorem TableChange.sameEntry {op : RegistryOp} (h : TableChange hash table op table' answer) {s}
    (hact : (table s j).active) (hwaits : 0 < (table s j).waiterCount)
    (hreg : ∀ key nowMs waitWindowMs maxWaitersPerKey,
      op = .register key nowMs waitWindowMs maxWaitersPerKey → (table s j).isFor key →
        leadsAgain (table s j) nowMs waitWindowMs = false) :
    SameEntry (table s j) (table' s j) := by
  cases h with
  | same => exact ⟨hact, rfl, rfl⟩
  | change j' entry _ found changed =>
    rcases set_cases table (shardOf hash op.key) j' entry s j with
      ⟨rfl, rfl, hset⟩ | ⟨-, hset⟩ <;> rw [hset]
    · cases changed with
      | lead key nowMs waitWindowMs maxWaitersPerKey again =>
        rw [hreg key nowMs waitWindowMs maxWaitersPerKey rfl found] at again
        cases again
      | join => exact ⟨hact, rfl, rfl⟩
      | complete => exact ⟨hact, rfl, rfl⟩
      | leave => exact ⟨hact, rfl, rfl⟩
    · exact ⟨hact, rfl, rfl⟩
  | take _ _ _ _ _ _ _ reusable =>
    rw [set_other]
    · exact ⟨hact, rfl, rfl⟩
    · rintro rfl rfl
      rcases reusable_cases reusable with hexpired | hfree
      · simp [terminalEntryExpired, hwaits] at hexpired
      · rw [hact] at hfree
        cases hfree

/-- The step registers a key only as the decision of a request. -/
def CoalescingStep.Decides (a : CoalescingStep) (op : RegistryOp) : Prop :=
  ∀ key nowMs waitWindowMs maxWaitersPerKey,
    op = .register key nowMs waitWindowMs maxWaitersPerKey →
      ∃ request, a = .request request ∧ key ∈ buildCoalescingKey request ∧
        nowMs = request.nowMs ∧ waitWindowMs = request.policy.coalescing.backendTimeoutMs

/-- What a step does to the table. -/
theorem coalescingStep_change (hbal : ∀ f ∈ s.followers, f.Balanced)
    (hstate : ∀ s' j, (s.registry.table s' j).state ≠ .tooLargeForHandoff)
    (hstep : coalescingStep hash s a = some t) :
    ∃ op answer, TableChange hash s.registry.table op t.registry.table answer ∧ a.Decides op := by
  have hsame : t.registry.table = s.registry.table → ∃ op answer,
      TableChange hash s.registry.table op t.registry.table answer ∧ a.Decides op := by
    intro htable
    rw [htable]
    exact ⟨.enterWait [], none, .same none nofun, nofun⟩
  cases a with
  | request request =>
    simp only [coalescingStep] at hstep
    rcases evaluateCoalescingDecision_cases s.registry request with
      ⟨hregistry, haction⟩ | ⟨key, hkey, hdec⟩
    · rw [hregistry, haction, if_neg nofun] at hstep
      cases hstep
      exact hsame rfl
    · rw [hdec] at hstep
      have hregistry : t.registry = (registryRegister hash s.registry key request.nowMs
          request.policy.coalescing.backendTimeoutMs
          request.policy.coalescing.maxWaitersPerKey).1 := by
        split at hstep <;> (cases hstep; rfl)
      rw [hregistry]
      refine ⟨_, _, registryRegister_change s.registry request.nowMs
        request.policy.coalescing.backendTimeoutMs request.policy.coalescing.maxWaitersPerKey
        (buildCoalescingKey_length hkey), ?_⟩
      rintro _ _ _ _ ⟨⟩
      exact ⟨request, rfl, hkey, rfl, rfl⟩
  | complete key generation state nowMs =>
    cases hstep
    have hop : (completeStateIfGeneration key generation state nowMs).KeyFits := trivial
    exact ⟨_, _, registryStep_change s.registry hop, nofun⟩
  | follow =>
    obtain ⟨f, hi, hstep⟩ := bind_eq_some_iff.mp hstep
    obtain ⟨⟨registry', f'⟩, hfollow, hstep⟩ := map_eq_some_iff.mp hstep
    cases hstep
    obtain ⟨-, -, -, hcases⟩ := followerStep_cases hstate (hbal f (mem_of_getElem? hi)) hfollow
    rcases hcases with ⟨htable, -⟩ | ⟨rfl, -, -⟩
    · exact hsame htable
    · have hop : (removeWaiter f.key).KeyFits := trivial
      exact ⟨_, _, registryStep_change s.registry hop, nofun⟩
  | timeout =>
    obtain ⟨f, hi, hstep⟩ := bind_eq_some_iff.mp hstep
    obtain ⟨f', htime, hstep⟩ := map_eq_some_iff.mp hstep
    cases hstep
    exact hsame rfl

theorem Accounted.sameEntry (h : Accounted hash limit s)
    (hguard : StepAccounted hash limit s a)
    (hstep : coalescingStep hash s a = some t) {s'}
    (hact : (s.registry.table s' j).active)
    (hwait : 0 < registeredFollowers s.followers (s.registry.table s' j).key
      (s.registry.table s' j).lifecycleGeneration) :
    SameEntry (s.registry.table s' j) (t.registry.table s' j) := by
  have hwaits : 0 < (s.registry.table s' j).waiterCount := by
    rw [UInt32.lt_iff_toNat_lt, h.table.counted s' j hact]
    exact hwait
  obtain ⟨op, answer, hchg, hreg⟩ :=
    coalescingStep_change h.balanced h.table.noHandoff hstep
  refine hchg.sameEntry hact hwaits ?_
  intro key nowMs waitWindowMs maxWaitersPerKey hop hfor
  obtain ⟨request, rfl, hkey, rfl, rfl⟩ := hreg key nowMs waitWindowMs maxWaitersPerKey hop
  have hshard : s' = shardOf hash key := by
    rw [← (isFor_iff.mp hfor).2]
    exact (h.table.keyed.home s' j _ (content_eq_some.mpr ⟨hact, rfl⟩)).symm
  subst hshard
  exact (hguard key hkey).2 j hfor hwaits

end Hash

/-- Along every run in which no request takes over an entry with waiters and no response is too large
    for a hand-off: the waiters of an active entry are its followers that have not deregistered, and no
    more than the limit of its key; every follower deregisters once; and an entry that followers are
    registered with keeps its slot. -/
theorem waiters_accounted (hash : Text → UInt64) (limit : Text → UInt32) (s : CoalescingState)
    (h : (coalescing hash).ReachableUnder (StepAccounted hash limit) s) :
    (∀ s' j, (s.registry.table s' j).active = true →
      (s.registry.table s' j).waiterCount.toNat =
          registeredFollowers s.followers (s.registry.table s' j).key
            (s.registry.table s' j).lifecycleGeneration ∧
        (s.registry.table s' j).waiterCount ≤ limit (s.registry.table s' j).key) ∧
    (∀ f ∈ s.followers, f.removeCalls ≤ 1 ∧ ∀ exit, f.pc = .done exit → f.removeCalls = 1) ∧
    ∀ a t, StepAccounted hash limit s a → coalescingStep hash s a = some t →
      ∀ s' j, (s.registry.table s' j).active = true →
        0 < registeredFollowers s.followers (s.registry.table s' j).key
          (s.registry.table s' j).lifecycleGeneration →
        SameEntry (s.registry.table s' j) (t.registry.table s' j) := by
  have haccounted := accounted_run h
  refine ⟨?_, ?_, ?_⟩
  · exact fun s' j hact => ⟨haccounted.table.counted s' j hact, haccounted.table.limited s' j hact⟩
  · intro f hf
    have hbal := haccounted.balanced f hf
    unfold Follower.Balanced at hbal
    constructor
    · split at hbal <;> omega
    · intro exit hpc
      rwa [hpc] at hbal
  · intro a t hguard hstep s' j hact hwait
    exact haccounted.sameEntry hguard hstep hact hwait

/-! ## Two runs -/

/-- A request for a coalesced route that does not insist on the cache. -/
def coalescedRequest (nowMs : UInt64) : CoalescingRequest where
  policy :=
    { routeId := some (lit "r"), coalescing := { enabled := true, requireCacheEnabled := false } }
  rawPath := lit "/a"
  nowMs := nowMs

def coalescedKey : Text := lit "c_key:r:0:/a?&fields="

/-- A leader and two followers, of which the first one waits until the leader is done. -/
def oneLeaves (state : InFlightCompletionState) : List CoalescingStep :=
  [.request (coalescedRequest 0), .request (coalescedRequest 1), .request (coalescedRequest 2)] ++
    List.replicate 6 (.follow 0 {}) ++ [.complete coalescedKey 1 state 3] ++
    List.replicate 6 (.follow 0 {})

theorem waiters_accounted_failed :
    ∃ s, ((coalescing fun _ => 0).ReachableUnder (StepAccounted (fun _ => 0) fun _ => 64) s) ∧
      (s.registry.table 0 0).waiterCount.toNat =
        registeredFollowers s.followers (s.registry.table 0 0).key
          (s.registry.table 0 0).lifecycleGeneration ∧
      registeredFollowers s.followers coalescedKey 1 = 1 := by
  have hrun : (((coalescing fun _ => 0).guardedRunFrom (StepAccounted (fun _ => 0) fun _ => 64)
      (coalescing fun _ => 0).init ((oneLeaves .failed).take 14)).any fun s =>
        decide ((s.registry.table 0 0).active ∧
          registeredFollowers s.followers coalescedKey 1 = 1)) := by
    decide +kernel
  obtain ⟨s, hreach, hact, hreg⟩ := System.exists_guardedRun _ hrun
  exact ⟨s, hreach, ((waiters_accounted (fun _ => 0) (fun _ => 64) s hreach).1 0 0 hact).1, hreg⟩

/-- After a response that is too large for a hand-off, the first follower has deregistered twice, and
    the entry has no waiters although the second one is registered. -/
theorem follower_deregisters_twice :
    ∃ s, (coalescing fun _ => 0).run (oneLeaves .tooLargeForHandoff) = some s ∧
      (s.registry.table 0 0).active = true ∧ (s.registry.table 0 0).waiterCount = 0 ∧
      registeredFollowers s.followers (s.registry.table 0 0).key
        (s.registry.table 0 0).lifecycleGeneration = 1 ∧
      s.followers.map (·.removeCalls) = [2, 0] :=
  System.exists_run (by decide +kernel)

end ByteTaper.Coalescing
