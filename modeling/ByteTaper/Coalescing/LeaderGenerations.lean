import ByteTaper.Coalescing.RegistrySteps

/-! # Leaders and their generations

No key has two active entries. A generation is a counter of a slot and not of a key, so that the leaders
of a key have different generations as long as the key keeps its slot. It loses the slot if another key
of the shard comes when the entry is complete, without waiters and past its window; the key then starts
again in a slot that may have any generation. -/

namespace ByteTaper.Coalescing

open List ShardedSlots InFlightEntry Calls Option

abbrev RegistryEvent := RegistryOp × Option RegistryRegistrationResult

/-- The generation of the leader that a call has made for the key. -/
def ledBy (key : Text) : RegistryEvent → Option UInt64
  | (.register key' _ _ _, some { role := .leader, lifecycleGeneration }) =>
    if key' = key then some lifecycleGeneration else none
  | _ => none

/-- The generations of the leaders of a key, in their order. -/
def leaderGenerations (key : Text) (history : List RegistryEvent) : List UInt64 :=
  history.filterMap (ledBy key)

theorem ledBy_eq_none {key : Text} {op : RegistryOp} {answer}
    (h : ∀ result, answer = some result → result.role ≠ .leader) : ledBy key (op, answer) = none := by
  unfold ledBy
  split
  next heq =>
    cases heq
    exact absurd rfl (h _ rfl)
  · rfl

section Hash

variable {hash : Text → UInt64}
  {table table' : ShardedSlots.Table kInFlightShards kSlotsPerShard InFlightEntry}
  {op : RegistryOp} {answer : Option RegistryRegistrationResult}

/-! ## One entry for a key -/

variable {entry : InFlightEntry} {s : Fin kInFlightShards} {j : Fin kSlotsPerShard} {key : Text}
  {g : UInt64} {n : Nat} {generations : List UInt64} {registry : InFlightRegistry}

theorem EntryChange.key_eq {entry' : InFlightEntry} (h : EntryChange entry op entry' answer) :
    entry'.key = entry.key := by
  cases h <;> rfl

abbrev Keyed (hash : Text → UInt64)
    (table : ShardedSlots.Table kInFlightShards kSlotsPerShard InFlightEntry) : Prop :=
  ShardedSlots.Keyed InFlightEntry.content InFlightEntry.key (shardOf hash) table

theorem Keyed.eq_of_isFor (h : Keyed hash table) {j'}
    (hj : (table s j).isFor key) (hj' : (table s j').isFor key) : j = j' := by
  rw [isFor_iff] at hj hj'
  exact h.unique s j j' _ _ (content_eq_some.mpr ⟨hj.1, rfl⟩)
    (content_eq_some.mpr ⟨hj'.1, rfl⟩) (hj.2.trans hj'.2.symm)

theorem TableChange.keyed (h : TableChange hash table op table' answer)
    (hkeyed : Keyed hash table) (hkey : op.KeyFits) : Keyed hash table' := by
  cases h with
  | same => exact hkeyed
  | change j _ _ found changed =>
    have hfound := isFor_iff.mp found
    apply hkeyed.set
    intro e he
    obtain ⟨-, rfl⟩ := content_eq_some.mp he
    rw [changed.key_eq, hfound.2]
    refine ⟨rfl, fun j' e' he' hkey' => ?_⟩
    exact hkeyed.unique _ j' j _ _ he' (content_eq_some.mpr ⟨hfound.1, rfl⟩)
      (hkey'.trans hfound.2.symm)
  | take key nowMs _ _ j registers absent =>
    subst registers
    apply hkeyed.set
    intro e he
    obtain ⟨-, rfl⟩ := content_eq_some.mp he
    have hcopy : (firstLeader (table (shardOf hash key) j) key nowMs).key = key :=
      keyCopy_eq hkey
    rw [hcopy]
    refine ⟨rfl, fun j' e' he' hkey' => ?_⟩
    obtain ⟨hact, rfl⟩ := content_eq_some.mp he'
    have hfor := isFor_iff.mpr ⟨hact, hkey'⟩
    rw [absent j'] at hfor
    cases hfor

theorem keyed_init : Keyed hash registryInit.table where
  home s i e he := by cases he
  unique s i j e e' he := by cases he

theorem keyed_run {ops : List RegistryOp} (hkeys : ∀ op ∈ ops, op.KeyFits) : Keyed hash
      (Calls.run (registryStep hash) registryInit ops).1.table := by
  have hguard : Along (registryStep hash) (fun _ op => op.KeyFits) registryInit
      ops := along_of_forall fun op hop _ => hkeys op hop
  refine run_invariant (P := fun registry _ => Keyed hash registry.table) ?_ hguard keyed_init
  intro registry _ op hop h
  exact (registryStep_change registry hop).keyed h hop

/-! ## The generations of a key -/

/-- The call does not take the slot of the key for another key. -/
def KeepsSlot (hash : Text → UInt64) (key : Text) (registry : InFlightRegistry) : RegistryOp → Prop
  | .register key' nowMs waitWindowMs _ =>
    key' ≠ key → shardOf hash key' = shardOf hash key → findSlot hash registry key' = none →
      ∀ j, reusableSlot hash registry key' nowMs waitWindowMs = some j →
        (registry.table (shardOf hash key) j).isFor key = false
  | _ => True

instance (key : Text) (registry : InFlightRegistry) : DecidablePred (KeepsSlot hash key registry)
  | .register .. => inferInstanceAs (Decidable (_ → _ → _ → ∀ _, _ → _))
  | .completeWithResponse .. | .completeState .. | .completeStateIfGeneration .. | .removeWaiter _
  | .enterWait _ | .exitWait _ => inferInstanceAs (Decidable True)

/-- A leader of the key has had the generation, and the key has an entry with this or a later one. -/
structure Issued (hash : Text → UInt64) (key : Text)
    (table : ShardedSlots.Table kInFlightShards kSlotsPerShard InFlightEntry) (g : UInt64) :
    Prop where
  pos : 0 < g
  entry : ∃ j, (table (shardOf hash key) j).isFor key = true ∧
    g ≤ (table (shardOf hash key) j).lifecycleGeneration

/-- Writing a slot keeps that, unless it is the slot of the key and gets another key or an earlier
    generation. -/
theorem Issued.set (h : Issued hash key table g) (hent : s = shardOf hash key →
      (table (shardOf hash key) j).isFor key → entry.isFor key ∧
        (table (shardOf hash key) j).lifecycleGeneration ≤ entry.lifecycleGeneration) :
    Issued hash key (ShardedSlots.set table s j entry) g := by
  obtain ⟨hpos, j', hfor, hle⟩ := h
  refine ⟨hpos, j', ?_⟩
  rcases set_cases table s j entry (shardOf hash key) j' with
    ⟨rfl, rfl, hset⟩ | ⟨-, hset⟩ <;> rw [hset]
  · obtain ⟨hfor', hle'⟩ := hent rfl hfor
    exact ⟨hfor', UInt64.le_trans hle hle'⟩
  · exact ⟨hfor, hle⟩

/-- The generations count the calls at most, so they do not wrap around. -/
def Bounded (table : ShardedSlots.Table kInFlightShards kSlotsPerShard InFlightEntry) (n : Nat) :
    Prop :=
  ∀ s j, (table s j).lifecycleGeneration.toNat ≤ n

theorem toNat_succ_le (g : UInt64) : (g + 1).toNat ≤ g.toNat + 1 := by
  exact Nat.mod_le _ _

theorem lt_succ_of_bounded (h : g.toNat ≤ n) (hn : n + 1 < 2 ^ 64) : g < g + 1 := by
  rw [UInt64.lt_iff_toNat_lt, UInt64.toNat_add]
  have : (1 : UInt64).toNat = 1 := rfl
  omega

theorem Bounded.set (h : Bounded table n) (hent : entry.lifecycleGeneration.toNat ≤ n + 1) :
    Bounded (ShardedSlots.set table s j entry) (n + 1) := by
  intro s' j'
  rcases set_cases table s j entry s' j' with ⟨-, -, hset⟩ | ⟨-, hset⟩ <;> rw [hset]
  · exact hent
  · exact Nat.le_succ_of_le (h s' j')

theorem TableChange.bounded (h : TableChange hash table op table' answer)
    (hbounded : Bounded table n) : Bounded table' (n + 1) := by
  cases h with
  | same => exact fun s j => Nat.le_succ_of_le (hbounded s j)
  | change j _ _ _ changed =>
    apply hbounded.set
    have hj := hbounded (shardOf hash op.key) j
    cases changed with
    | lead => exact Nat.le_trans (toNat_succ_le _) (Nat.succ_le_succ hj)
    | join | complete | leave => exact Nat.le_succ_of_le hj
  | take _ _ _ _ j =>
    apply hbounded.set
    exact Nat.le_trans (toNat_succ_le _) (Nat.succ_le_succ (hbounded _ j))

/-- The leaders of the key so far have increasing generations. -/
structure LeadersInOrder (hash : Text → UInt64) (key : Text)
    (table : ShardedSlots.Table kInFlightShards kSlotsPerShard InFlightEntry)
    (generations : List UInt64) : Prop where
  increasing : generations.Pairwise (· < ·)
  issued : ∀ g ∈ generations, Issued hash key table g

section

variable (h : LeadersInOrder hash key table generations)
  (hissued : ∀ g, Issued hash key table g → Issued hash key table' g)

include h hissued

/-- A call that makes no leader for the key keeps them. -/
theorem LeadersInOrder.mono : LeadersInOrder hash key table' generations where
  increasing := h.increasing
  issued g hg := hissued g (h.issued g hg)

/-- A new leader comes after the others if its generation is later than the one of the entry. -/
theorem LeadersInOrder.append (hnew : Issued hash key table' g)
    (hlater : ∀ g', Issued hash key table g' → g' < g) :
    LeadersInOrder hash key table' (generations ++ [g]) where
  increasing := by
    rw [pairwise_append]
    refine ⟨h.increasing, pairwise_singleton _ _, fun g' hg' g'' hg'' => ?_⟩
    rw [mem_singleton.mp hg'']
    exact hlater g' (h.issued g' hg')
  issued := forall_mem_append.mpr ⟨fun g' hg' => hissued g' (h.issued g' hg'), forall_mem_singleton.mpr hnew⟩

end

section

variable (hbounded : Bounded table n) (hn : n + 1 < 2 ^ 64)
  (h : LeadersInOrder hash key table generations)

include hbounded hn h

theorem Keyed.leaders_change (hkeyed : Keyed hash table)
    (found : (table (shardOf hash op.key) j).isFor op.key)
    (changed : EntryChange (table (shardOf hash op.key) j) op entry answer) :
    LeadersInOrder hash key (ShardedSlots.set table (shardOf hash op.key) j entry)
      (generations ++ (ledBy key (op, answer)).toList) := by
  have hgen : (table (shardOf hash op.key) j).lifecycleGeneration ≤
      entry.lifecycleGeneration := by
    cases changed with
    | lead => exact UInt64.le_of_lt (lt_succ_of_bounded (hbounded _ j) hn)
    | join => exact UInt64.le_refl _
    | complete => exact UInt64.le_refl _
    | leave => exact UInt64.le_refl _
  have hact : entry.active := by
    have hfound := (isFor_iff.mp found).1
    cases changed with
    | lead => rfl
    | join => exact hfound
    | complete => exact hfound
    | leave => exact hfound
  have hissued : ∀ g, Issued hash key table g → Issued hash key
      (ShardedSlots.set table (shardOf hash op.key) j entry) g := by
    intro g hg
    apply hg.set
    intro hs hfor
    rw [hs] at hgen changed
    refine ⟨isFor_iff.mpr ⟨hact, ?_⟩, hgen⟩
    rw [changed.key_eq, (isFor_iff.mp hfor).2]
  have hsame : ledBy key (op, answer) = none → LeadersInOrder hash key
      (ShardedSlots.set table (shardOf hash op.key) j entry)
      (generations ++ (ledBy key (op, answer)).toList) := by
    intro hnone
    rw [hnone, toList_none, append_nil]
    exact h.mono hissued
  cases changed with
  | lead key' =>
    by_cases hkey : key' = key
    · subst hkey
      simp only [ledBy, if_true, toList_some]
      refine h.append hissued ⟨?_, j, ?_, ?_⟩ ?_
      · exact Nat.lt_of_le_of_lt (Nat.zero_le _) (lt_succ_of_bounded (hbounded _ j) hn)
      · rw [RegistryOp.key, set_same, isFor_iff]
        exact ⟨rfl, (isFor_iff.mp found).2⟩
      · rw [RegistryOp.key, set_same]
        exact UInt64.le_refl _
      · rintro g' ⟨-, j', hfor, hle⟩
        rw [hkeyed.eq_of_isFor hfor found] at hle
        exact UInt64.lt_of_le_of_lt hle (lt_succ_of_bounded (hbounded _ j) hn)
    · exact hsame (if_neg hkey)
  | join => exact hsame (ledBy_eq_none (by rintro _ ⟨⟩ ⟨⟩))
  | complete | leave => exact hsame (ledBy_eq_none (by rintro _ ⟨⟩))

theorem leaders_take {key' : Text} {nowMs : UInt64} {waitWindowMs maxWaitersPerKey : UInt32}
    (hfits : key'.length < kInFlightKeySize)
    (absent : ∀ j', (table (shardOf hash key') j').isFor key' = false)
    (hkeeps : key' ≠ key → shardOf hash key' = shardOf hash key →
      (table (shardOf hash key) j).isFor key = false) :
    LeadersInOrder hash key (ShardedSlots.set table (shardOf hash key') j
        (firstLeader (table (shardOf hash key') j) key' nowMs))
      (generations ++ (ledBy key (.register key' nowMs waitWindowMs maxWaitersPerKey,
        some { role := .leader
               lifecycleGeneration :=
                 (table (shardOf hash key') j).lifecycleGeneration + 1 })).toList) := by
  have hissued : ∀ g, Issued hash key table g → Issued hash key
      (ShardedSlots.set table (shardOf hash key') j
        (firstLeader (table (shardOf hash key') j) key' nowMs)) g := by
    intro g hg
    apply hg.set
    intro hs hfor
    have hnot : (table (shardOf hash key) j).isFor key = false := by
      by_cases hkey : key' = key
      · exact hkey ▸ absent j
      · exact hkeeps hkey hs
    rw [hnot] at hfor
    cases hfor
  by_cases hkey : key' = key
  · subst hkey
    simp only [ledBy, if_true, toList_some]
    refine h.append hissued ⟨?_, j, ?_, ?_⟩ ?_
    · exact Nat.lt_of_le_of_lt (Nat.zero_le _) (lt_succ_of_bounded (hbounded _ j) hn)
    · rw [set_same, isFor_iff]
      exact ⟨rfl, keyCopy_eq hfits⟩
    · rw [set_same]
      exact UInt64.le_refl _
    · rintro g' ⟨-, j', hfor, -⟩
      rw [absent j'] at hfor
      cases hfor
  · simp only [ledBy, if_neg hkey, toList_none, append_nil]
    exact h.mono hissued

end

/-! ## Runs -/

/-- What holds after every run in which the key keeps its slot. -/
structure LeadersKept (hash : Text → UInt64) (key : Text) (registry : InFlightRegistry)
    (history : List RegistryEvent) : Prop where
  keyed : Keyed hash registry.table
  bounded : Bounded registry.table history.length
  inOrder : history.length < 2 ^ 64 →
    LeadersInOrder hash key registry.table (leaderGenerations key history)

theorem LeadersKept.step {history} (h : LeadersKept hash key registry history) (hop : op.KeyFits)
    (hkeeps : KeepsSlot hash key registry op) :
    LeadersKept hash key (registryStep hash registry op).1
      (history ++ [(op, (registryStep hash registry op).2)]) := by
  have hchg : TableChange hash registry.table op _ _ := registryStep_change registry hop
  refine ⟨hchg.keyed h.keyed hop, ?_, ?_⟩
  · rw [length_append, length_singleton]
    exact hchg.bounded h.bounded
  · intro hlen
    rw [length_append, length_singleton] at hlen
    have horder := h.inOrder (by omega)
    have hgens : leaderGenerations key (history ++ [(op, (registryStep hash registry op).2)]) =
        leaderGenerations key history ++ (ledBy key (op, (registryStep hash registry op).2)).toList :=
      filterMap_append.trans (by congr 1)
    rw [hgens]
    generalize (registryStep hash registry op).1.table = table',
      (registryStep hash registry op).2 = answer at hchg ⊢
    cases hchg with
    | same _ rejected =>
      rw [ledBy_eq_none, toList_none, append_nil]
      · exact horder
      · intro result hres
        rw [rejected result hres]
        exact nofun
    | change _ _ _ found changed =>
      exact h.keyed.leaders_change h.bounded hlen horder found changed
    | take _ _ _ _ j registers absent reusable =>
      subst registers
      apply leaders_take h.bounded hlen horder hop absent
      have hnone : findSlot hash registry _ = none :=
        find?_eq_none.mpr fun j' _ => Bool.eq_false_iff.mp (absent j')
      exact fun hne hs => hkeeps hne hs hnone j reusable

end Hash

/-- No key has two active entries, whatever the calls are. If the key keeps its slot, the generations
    of its leaders increase, and a completion call with the generation of a leader changes nothing once
    a later leader has come. -/
theorem leaders_have_own_generations (hash : Text → UInt64) (ops : List RegistryOp)
    (hkeys : ∀ op ∈ ops, op.KeyFits) :
    let after := Calls.run (registryStep hash) registryInit ops
    (∀ s s' j j', (after.1.table s j).active = true → (after.1.table s' j').active = true →
      (after.1.table s j).key = (after.1.table s' j').key → s = s' ∧ j = j') ∧
    ∀ key, ops.length < 2 ^ 64 →
      Calls.Along (registryStep hash) (KeepsSlot hash key) registryInit ops →
        (leaderGenerations key after.2).Pairwise (· < ·) ∧
        ∀ earlier g later, leaderGenerations key after.2 = earlier ++ g :: later → later ≠ [] →
          ∀ state nowMs, registryCompleteStateIfGeneration hash after.1 key g state nowMs =
            (after.1, false) := by
  intro after
  constructor
  · intro s s' j j' hact hact' hkey
    have hkeyed : Keyed hash after.1.table := keyed_run hkeys
    obtain ⟨hs, hj, -⟩ := hkeyed.ext (content_eq_some.mpr ⟨hact, rfl⟩)
      (content_eq_some.mpr ⟨hact', rfl⟩) hkey
    exact ⟨hs, hj⟩
  · intro key hlen hkeeps
    have hfits : Along (registryStep hash) (fun _ op => op.KeyFits) registryInit
        ops := along_of_forall fun op hop _ => hkeys op hop
    have hkept : LeadersKept hash key after.1 after.2 := by
      refine run_invariant (P := LeadersKept hash key) ?_ (hfits.and hkeeps) ?_
      · intro registry history op hguard h
        exact h.step hguard.1 hguard.2
      · exact ⟨keyed_init, fun s j => Nat.zero_le _, fun _ => ⟨.nil, nofun⟩⟩
    have horder := hkept.inOrder (by
      rw [show after.2.length = 0 + ops.length from runFrom_length _]
      omega)
    refine ⟨horder.increasing, fun earlier g later hgens hlater state nowMs => ?_⟩
    obtain ⟨g', later, rfl⟩ := exists_cons_of_ne_nil hlater
    have hpairwise := horder.increasing
    have hissued := horder.issued
    rw [hgens] at hpairwise hissued
    have hlt : g < g' := by
      rw [pairwise_append, pairwise_cons] at hpairwise
      exact hpairwise.2.1.1 g' mem_cons_self
    obtain ⟨-, j, hfor, hle⟩ := hissued g' (by simp)
    -- the entry of the key has a later generation
    unfold registryCompleteStateIfGeneration updateEntry
    cases hfound : findSlot hash after.1 key with
    | none => rfl
    | some =>
      obtain rfl := hkept.keyed.eq_of_isFor hfor (findSlot_some hfound)
      have hne : g ≠ 0 ∧ ((after.1.shards (shardOf hash key)).slots j).lifecycleGeneration ≠ g :=
        ⟨(UInt64.ne_of_lt (hissued g (by simp)).pos).symm,
          (UInt64.ne_of_lt (UInt64.lt_of_lt_of_le hlt hle)).symm⟩
      dsimp only
      rw [if_pos hne]

/-- The second leader of a key, after the first one has failed. -/
def secondLeader : List RegistryOp :=
  [.register (lit "a") 0 1 1, .completeStateIfGeneration (lit "a") 1 .failed 0,
    .register (lit "a") 0 1 1]

theorem leaders_have_own_generations_second :
    registryCompleteStateIfGeneration (fun _ => 0)
        (Calls.run (registryStep fun _ => 0) registryInit secondLeader).1 (lit "a") 1 .l2Ready 0 =
      ((Calls.run (registryStep fun _ => 0) registryInit secondLeader).1, false) :=
  (((leaders_have_own_generations (fun _ => 0) secondLeader (by decide +kernel)).2 (lit "a")
    (by decide) (by decide +kernel)).2 [] 1 [2] (by decide +kernel) (by decide)) .l2Ready 0

/-- A key whose slot goes to another key once its leader is done. -/
def slotTaken : List RegistryOp :=
  [.register (lit "a") 0 1 1, .completeStateIfGeneration (lit "a") 1 .l1Ready 0,
    .register (lit "b") 1 1 1, .register (lit "a") 1 1 1]

/-- Both leaders of the key have the generation `1`, so that a late completion call of the first one
    completes the entry of the second one. -/
theorem generation_is_reused :
    (∀ op ∈ slotTaken, op.KeyFits) ∧
    leaderGenerations (lit "a")
        (Calls.run (registryStep fun _ => 0) registryInit slotTaken).2 = [1, 1] ∧
      ((Calls.run (registryStep fun _ => 0) registryInit slotTaken).1.table 0 1).state = .inFlight ∧
      ((registryCompleteStateIfGeneration (fun _ => 0)
        (Calls.run (registryStep fun _ => 0) registryInit slotTaken).1 (lit "a") 1 .failed
          2).1.table 0 1).state = .failed := by
  decide +kernel

end ByteTaper.Coalescing
