import ByteTaper.Coalescing.FollowerWait

/-! # The limits of the active waiters

A follower tests the limit of the registry and that of its shard, and raises the two counters only when
it enters the wait. Others can test the limits in between. -/

namespace ByteTaper.Coalescing

open List Option InFlightRegistry
open Transition (System)

/-- How far a follower has got: past one test, past both, and in the wait. -/
@[simp] def FollowerPc.phase : FollowerPc → Nat
  | .guardShard => 1
  | .l1Before | .enterWait => 2
  | .beginWait | .blocked _ | .exitWait _ => 3
  | _ => 0

/-- What has a limit and a counter: the registry, or a shard. -/
abbrev Scope := Option (Fin kInFlightShards)

def Scope.limit (scope : Scope) (G S : UInt32) : UInt32 := scope.elim G fun _ => S

/-- The phase in which the limit is tested. -/
@[simp] def Scope.tested (scope : Scope) : Nat := scope.elim 0 fun _ => 1

def InFlightRegistry.activeIn (registry : InFlightRegistry) (scope : Scope) : UInt32 :=
  scope.elim registry.activeWaiters fun k => (registry.shards k).activeWaiters

section Hash

variable (hash : Text → UInt64)

/-- The followers in the scope that are beyond the phase. -/
def beyond (followers : List Follower) (scope : Scope) (phase : Nat) : Nat :=
  followers.countP fun f => scope.all (· == shardOf hash f.key) && phase < f.pc.phase

/-- All that have passed the test of the limit are in the wait. -/
def allWait (followers : List Follower) (scope : Scope) : Bool :=
  beyond hash followers scope scope.tested = beyond hash followers scope 2

/-- The routes have the limits, and no follower tests one of them between the test and the wait of
    another. -/
def testsInTurn (G S : UInt32) (s : CoalescingState) : CoalescingStep → Bool
  | .request request =>
    request.policy.coalescing.maxActiveFollowerWaiters = G &&
      request.policy.coalescing.maxActiveFollowerWaitersPerShard = S
  | .follow i _ => s.followers[i]?.all fun f =>
    match f.pc with
    | .guardGlobal => allWait hash s.followers none
    | .guardShard => allWait hash s.followers (some (shardOf hash f.key))
    | _ => true
  | _ => true

structure LimitsKept (G S : UInt32) (s : CoalescingState) : Prop where
  limits : ∀ f ∈ s.followers, f.policy.coalescing.maxActiveFollowerWaiters = G ∧
    f.policy.coalescing.maxActiveFollowerWaitersPerShard = S
  counted : ∀ scope, s.registry.activeIn scope = .ofNat (beyond hash s.followers scope 2)
  bounded : ∀ scope, beyond hash s.followers scope scope.tested ≤ (scope.limit G S).toNat

variable {hash} {G S : UInt32} {s t : CoalescingState} {f f' : Follower}
  {registry registry' : InFlightRegistry} {scope : Scope} {i : Nat} {a : CoalescingStep}

@[simp] theorem activeIn_setSlot (k : Fin kInFlightShards) (j : Fin kSlotsPerShard)
    (entry : InFlightEntry) : (setSlot registry k j entry).activeIn scope = registry.activeIn scope := by
  cases scope with
  | none => rfl
  | some l => by_cases hl : l = k <;> simp [activeIn, setSlot, hl]

@[simp] theorem activeIn_updateEntry (key : Text) (update : InFlightEntry → Option InFlightEntry) :
    (updateEntry hash registry key update).1.activeIn scope = registry.activeIn scope := by
  unfold updateEntry
  dsimp only
  repeat' split
  all_goals simp

theorem activeIn_decision (request : CoalescingRequest) :
    (evaluateCoalescingDecision hash registry request).1.activeIn scope =
      registry.activeIn scope := by
  unfold evaluateCoalescingDecision registryRegister
  dsimp only
  repeat' split
  all_goals simp

theorem activeIn_addWaiters (key : Text) (n : UInt32) :
    (addWaiters hash registry key n).activeIn scope =
      registry.activeIn scope + if scope.all (· == shardOf hash key) then n else 0 := by
  cases scope with
  | none => simp [activeIn, addWaiters]
  | some l => by_cases hl : l = shardOf hash key <;> simp [activeIn, addWaiters, hl]

section

variable (h : LimitsKept hash G S s)

include h

theorem LimitsKept.room (hturn : allWait hash s.followers scope)
    (htest : ¬scope.limit G S ≤ s.registry.activeIn scope) :
    beyond hash s.followers scope scope.tested < (scope.limit G S).toNat := by
  have hbd := h.bounded scope
  have hlt := (scope.limit G S).toNat_lt
  rw [UInt32.le_iff_toNat_le, h.counted, ← of_decide_eq_true hturn, UInt32.toNat_ofNat',
    Nat.mod_eq_of_lt (by omega)] at htest
  omega

variable (hi : s.followers[i]? = some f)

include hi

/-- A follower that is counted in or out as its phase says, and passes a test only if there is room. -/
theorem LimitsKept.set (d : UInt32) (hpol : f'.policy = f.policy) (hkey : f'.key = f.key)
    (hact : ∀ scope, registry'.activeIn scope =
      s.registry.activeIn scope + if scope.all (· == shardOf hash f.key) then d else 0)
    (hd : d + .ofNat (decide (2 < f.pc.phase)).toNat = .ofNat (decide (2 < f'.pc.phase)).toNat)
    (hroom : ∀ scope, scope.all (· == shardOf hash f.key) →
      scope.tested < f'.pc.phase → scope.tested < f.pc.phase ∨
        beyond hash s.followers scope scope.tested < (scope.limit G S).toNat) :
    LimitsKept hash G S { registry := registry', followers := s.followers.set i f' } := by
  obtain ⟨hlt, hget⟩ := List.getElem?_eq_some_iff.mp hi
  have hset : ∀ scope n, let covers := scope.all (· == shardOf hash f.key)
      beyond hash (s.followers.set i f') scope n + (covers && decide (n < f.pc.phase)).toNat =
        beyond hash s.followers scope n + (covers && decide (n < f'.pc.phase)).toNat := by
    intro scope n
    have hle : _ ≤ beyond hash s.followers scope n := boole_getElem_le_countP hlt
    unfold beyond at hle ⊢
    rw [hget] at hle
    rw [countP_set hlt, hget, hkey]
    generalize s.followers.countP _ = count at hle ⊢
    grind
  constructor
  · intro g hg
    rcases mem_or_eq_of_mem_set hg with hg | rfl
    · exact h.limits g hg
    · exact hpol ▸ h.limits f (mem_of_getElem? hi)
  · intro scope
    have hcnt := congrArg UInt32.ofNat (hset scope 2)
    rw [UInt32.ofNat_add, UInt32.ofNat_add, ← h.counted] at hcnt
    rw [hact, ← UInt32.add_left_inj, hcnt]
    cases scope.all (· == shardOf hash f.key) with
    | false => simp
    | true => rw [if_pos rfl, Bool.true_and, Bool.true_and, ← hd, UInt32.add_assoc]
  · intro scope
    have hcnt := hset scope scope.tested
    have hold := h.bounded scope
    have hnew := hroom scope
    cases scope.all (· == shardOf hash f.key) <;> grind

theorem LimitsKept.stay (hpol : f'.policy = f.policy) (hkey : f'.key = f.key)
    (hact : ∀ scope, registry'.activeIn scope = s.registry.activeIn scope)
    (hphase : f'.pc.phase = f.pc.phase ∨ f'.pc.phase = 0 ∧ f.pc.phase < 3) :
    LimitsKept hash G S { registry := registry', followers := s.followers.set i f' } := by
  refine h.set hi 0 hpol hkey (by simpa using hact) ?_ fun scope _ hnew => .inl (by omega)
  have hwaits : decide (2 < f.pc.phase) = decide (2 < f'.pc.phase) := decide_eq_decide.mpr (by omega)
  rw [hwaits, UInt32.zero_add]

theorem LimitsKept.follow {lookups : LookupOutcomes} (hG : 0 < G) (hS : 0 < S)
    (hturn : testsInTurn hash G S s (.follow i lookups))
    (hstep : followerStep hash s.registry f lookups = some (registry', f')) :
    LimitsKept hash G S { registry := registry', followers := s.followers.set i f' } := by
  simp only [testsInTurn, hi, all_some] at hturn
  obtain ⟨hglobal, hshard⟩ := h.limits f (mem_of_getElem? hi)
  unfold followerStep at hstep
  cases hpc : f.pc <;> simp only [hpc, hglobal, hshard] at hstep hturn
  case guardGlobal =>
    split at hstep <;> cases hstep
    · exact h.stay hi rfl rfl (fun _ => rfl) (by simp [hpc])
    next htest =>
      refine h.set hi 0 rfl rfl (by simp) (by simp [hpc]) fun scope _ hnew => .inr ?_
      cases scope with
      | none =>
        refine h.room hturn fun hle => htest ?_
        exact Bool.and_eq_true_iff.mpr ⟨decide_eq_true hG, decide_eq_true hle⟩
      | some => cases Nat.lt_irrefl 1 hnew
  case guardShard =>
    split at hstep <;> cases hstep
    · exact h.stay hi rfl rfl (fun _ => rfl) (by simp [hpc])
    next htest =>
      refine h.set hi 0 rfl rfl (by simp) (by simp [hpc]) fun scope hscope _ => ?_
      cases scope with
      | none => exact .inl (by simp [hpc])
      | some =>
        obtain rfl : _ = shardOf hash f.key := by simpa using hscope
        refine .inr (h.room hturn fun hle => htest ?_)
        exact Bool.and_eq_true_iff.mpr ⟨decide_eq_true hS, decide_eq_true hle⟩
  case enterWait =>
    cases hstep
    refine h.set hi 1 rfl rfl (fun _ => activeIn_addWaiters _ _) (by simp [hpc]) fun scope _ _ => ?_
    cases scope <;> simp [hpc]
  case exitWait =>
    obtain ⟨rfl, rfl⟩ := Prod.mk.inj (Option.some.inj hstep)
    refine h.set hi (-1) rfl rfl (fun _ => activeIn_addWaiters _ _) ?_ fun _ _ hnew =>
      absurd hnew (Nat.not_lt_zero _)
    simp only [hpc, FollowerPc.phase, Nat.reduceLT, decide_true, decide_false]
    decide
  case beginWait =>
    cases hstep
    cases waitStart hash s.registry f.key f.generation <;>
      exact h.stay hi rfl rfl (fun _ => rfl) (by simp [hpc, waitOutcome])
  case blocked =>
    obtain ⟨_, -, hstep⟩ := map_eq_some_iff.mp hstep
    cases hstep
    exact h.stay hi rfl rfl (fun _ => rfl) (by simp [hpc])
  all_goals
    try split at hstep
    all_goals
      cases hstep
      try exact h.stay hi rfl rfl (by simp [registryRemoveWaiter]) (by simp [hpc])

omit hi in
theorem LimitsKept.step (hG : 0 < G) (hS : 0 < S) (hturn : testsInTurn hash G S s a)
    (hstep : coalescingStep hash s a = some t) : LimitsKept hash G S t := by
  cases a with
  | request request =>
    simp only [coalescingStep] at hstep
    split at hstep <;> cases hstep
    · refine ⟨?_, fun scope => ?_, fun scope => ?_⟩
      · intro g hg
        rcases mem_append.mp hg with hg | hg
        · exact h.limits g hg
        · obtain rfl := mem_singleton.mp hg
          simpa [testsInTurn] using hturn
      · simpa [activeIn_decision, beyond, countP_append] using h.counted scope
      · simpa [beyond, countP_append] using h.bounded scope
    · exact ⟨h.limits, fun scope => (activeIn_decision request).trans (h.counted scope), h.bounded⟩
  | complete =>
    cases hstep
    exact ⟨h.limits, fun scope => (activeIn_updateEntry ..).trans (h.counted scope), h.bounded⟩
  | follow i lookups =>
    obtain ⟨f, hi, hstep⟩ := bind_eq_some_iff.mp hstep
    obtain ⟨⟨_, _⟩, hfollow, rfl⟩ := map_eq_some_iff.mp hstep
    exact h.follow hi hG hS hturn hfollow
  | timeout i =>
    obtain ⟨f, hi, hstep⟩ := bind_eq_some_iff.mp hstep
    obtain ⟨_, htime, rfl⟩ := map_eq_some_iff.mp hstep
    unfold followerTimeout at htime
    split at htime
    next hpc =>
      split at htime <;> cases htime
      exact h.stay hi rfl rfl (fun _ => rfl) (by simp [hpc])
    · cases htime

end

variable (hash) in
/-- In every run in which no follower tests a limit between the test and the wait of another, no more
    followers wait than the limits allow, and the counters count them. -/
theorem active_waiters_limited (G S : UInt32) (hG : 0 < G) (hS : 0 < S) (s : CoalescingState)
    (h : (coalescing hash).ReachableUnder (testsInTurn hash G S · ·) s) (scope : Scope) :
    beyond hash s.followers scope 2 ≤ (scope.limit G S).toNat ∧
      (s.registry.activeIn scope).toNat = beyond hash s.followers scope 2 := by
  have hkept : LimitsKept hash G S s := by
    refine h.invariant (P := LimitsKept hash G S) ?_ fun s a t hs hturn hstep =>
      hs.step hG hS hturn hstep
    exact ⟨by simp [coalescing], fun scope => by cases scope <;> rfl, fun scope => Nat.zero_le _⟩
  have hle : beyond hash s.followers scope 2 ≤ (scope.limit G S).toNat := by
    have htested : scope.tested ≤ 2 := by cases scope <;> simp
    exact le_trans (countP_mono_left fun f _ hf => by grind) (hkept.bounded scope)
  have hlt := (scope.limit G S).toNat_lt
  exact ⟨hle, by rw [hkept.counted, UInt32.toNat_ofNat', Nat.mod_eq_of_lt (by omega)]⟩

/-- A request for a route that lets one follower wait. -/
def limitedRequest : CoalescingRequest where
  policy :=
    { routeId := some (lit "r"), coalescing :=
        { enabled := true, requireCacheEnabled := false, maxActiveFollowerWaiters := 1
          maxActiveFollowerWaitersPerShard := 1 } }
  rawPath := lit "/a"
  nowMs := 0

/-- A leader and two followers, who both test the limits before one of them waits. -/
def bothTestFirst : List CoalescingStep :=
  List.replicate 3 (.request limitedRequest) ++ List.replicate 4 (.follow 0 {}) ++
    List.replicate 4 (.follow 1 {}) ++ [.follow 0 {}, .follow 1 {}]

theorem active_waiters_limited_alone :
    ∃ s, (coalescing fun _ => 0).ReachableUnder (testsInTurn (fun _ => 0) 1 1 · ·) s ∧
      s.registry.activeIn none = 1 ∧ beyond (fun _ => 0) s.followers none 2 ≤ 1 := by
  have hrun : (((coalescing fun _ => 0).guardedRunFrom (testsInTurn (fun _ => 0) 1 1 · ·)
      (coalescing fun _ => 0).init (bothTestFirst.take 7 ++ [.follow 0 {}])).any fun s =>
        decide (s.registry.activeIn none = 1)) := by
    decide +kernel
  obtain ⟨s, hreach, hone⟩ := System.exists_guardedRun _ hrun
  exact ⟨s, hreach, hone, (active_waiters_limited _ 1 1 (by decide) (by decide) s hreach none).1⟩

theorem two_wait_at_limit_one :
    ∃ s, (coalescing fun _ => 0).run bothTestFirst = some s ∧
      beyond (fun _ => 0) s.followers none 2 = 2 :=
  System.exists_run (by decide +kernel)

end Hash

end ByteTaper.Coalescing
