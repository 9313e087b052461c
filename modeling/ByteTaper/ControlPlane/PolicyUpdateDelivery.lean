import ByteTaper.ControlPlane.PolicyUpdateOrder

/-! # Every accepted update job is delivered

No accepted job is lost: a shard with waiting jobs is in the ready list or in the hands of a worker
(`QueueInv.busySeen`), and from there its next job is popped. The argument is a chain of stages.
A shard in the ready list moves to the front, since `try_claim_shard` erases from the front and
everything else appends; at the front it is claimed; a worker that holds a shard with waiting jobs
pops one. A worker that has seen the shard empty puts it back into the ready list when it finds a
job at release. -/

namespace ByteTaper.ControlPlane

open List WorkerPc QueueEvent
open Transition (System)

variable {cfg : PolicyUpdateQueueConfig} {hash : Text → Nat} {q q' : Queue cfg} {a : QueueAction}

/-- What a worker does between claim and release. -/
def OwnAction (w : Nat) (a : QueueAction) : Prop := a = .pop w ∨ a = .finish w ∨ a = .release w

/-- Workers keep claiming: `try_claim_shard` is called again and again and runs to its end, and a
    worker between claim and release takes its next step. -/
structure Fair (E : (queueSystem cfg hash).Execution) : Prop where
  claims : ∀ n, ∃ m, n ≤ m ∧ ∃ w, E.action m = .claimBegin w
  visits : ∀ n w, (E.state n).queueMu = some (.claiming w) →
    ∃ m, n ≤ m ∧ E.action m = .claimVisit
  moves : ∀ n w, (E.state n).workers w ≠ .idle → ∃ m, n ≤ m ∧ OwnAction w (E.action m)

/-! ## What a step leaves alone -/

/-- A worker inside a round moves by its own actions only. -/
theorem worker_step (hi : QueueInv q) (h : QueueStep cfg hash q a q') {w : Nat}
    (hw : q.workers w ≠ .idle) : q'.workers w = q.workers w ∨ OwnAction w a := by
  cases h with
  | claimTake v _ _ hmu =>
    left
    have hne : w ≠ v := fun hwv => hw (hwv ▸ hi.claimer v hmu)
    simp [hne]
  | popNone v | popSome v =>
    by_cases hwv : w = v
    · exact Or.inr (Or.inl (by rw [hwv]))
    · exact Or.inl (by simp [hwv])
  | finish v =>
    by_cases hwv : w = v
    · exact Or.inr (Or.inr (Or.inl (by rw [hwv])))
    · exact Or.inl (by simp [hwv])
  | releaseIdle v | releaseReady v =>
    by_cases hwv : w = v
    · exact Or.inr (Or.inr (Or.inr (by rw [hwv])))
    · exact Or.inl (by simp [hwv])
  | _ => exact Or.inl rfl

/-- The ready list grows at the end and is erased from the front, the latter only by claims. -/
theorem ready_step (h : QueueStep cfg hash q a q') :
    (∃ post, q'.readyShardIds = q.readyShardIds ++ post) ∨
      (a = .claimVisit ∧ ∃ s, q.readyShardIds = s :: q'.readyShardIds) := by
  cases h with
  | accept _ _ _ _ s =>
    left
    split
    · exact ⟨[s], rfl⟩
    · exact ⟨[], by simp⟩
  | drainMark s | releaseReady _ s =>
    left
    dsimp only
    unfold pushAbsent
    split
    · exact ⟨[], by simp⟩
    · exact ⟨[s], rfl⟩
  | claimDrop w s rest state hmu hready
  | claimTake w s rest hmu hready => exact Or.inr ⟨rfl, s, hready⟩
  | _ => exact Or.inl ⟨[], by simp⟩

variable (hash) in
/-- How many jobs of shard `s` have been popped. -/
def poppedCount (q : Queue cfg) (s : Fin cfg.shardCount) : Nat :=
  (startedJobs (onShard cfg hash s) q.log).length

variable (hash) in
/-- Jobs wait in shard `s`, of which `k` jobs have been popped so far. -/
def Pending (s : Fin cfg.shardCount) (k : Nat) (q : Queue cfg) : Prop :=
  (q.shards s).jobs ≠ [] ∧ poppedCount hash q s = k

/-- Waiting jobs stay until one of them is popped. -/
theorem pending_step {s} {k : Nat} (hl : LogInv hash q)
    (hp : Pending hash s k q) (h : QueueStep cfg hash q a q') :
    Pending hash s k q' ∨ k < poppedCount hash q' s := by
  obtain ⟨hjobs, hk⟩ := hp
  cases h with
  | accept _ _ _ _ t =>
    refine Or.inl ⟨?_, ?_⟩
    · by_cases hst : s = t
      · simp [hst]
      · simpa [hst] using hjobs
    · simpa [poppedCount, startedJob?] using hk
  | popSome _ t job _ _ ht =>
    have hkey := hl.routed t job (by simp [ht])
    by_cases hst : s = t
    · subst hst
      right
      simp [poppedCount, startedJob?, onShard, hkey] at hk ⊢
      omega
    · have hne : computeShardId cfg hash job.resourceKey ≠ s := hkey ▸ Ne.symm hst
      refine Or.inl ⟨by simpa [hst] using hjobs, ?_⟩
      simpa [poppedCount, startedJob?, onShard, hne] using hk
  | finish | drainEnd => exact Or.inl ⟨hjobs, by simpa [poppedCount, startedJob?] using hk⟩
  | drainMark t | claimDrop _ t | claimTake _ t | releaseIdle _ t | releaseReady _ t =>
    refine Or.inl ⟨?_, hk⟩
    by_cases hst : s = t
    · subst hst
      simpa using hjobs
    · simpa [hst] using hjobs
  | _ => exact Or.inl ⟨hjobs, hk⟩

/-! ## The stages of a shard with waiting jobs -/

section Stages

variable {E : (queueSystem cfg hash).Execution} {s : Fin cfg.shardCount} {k : Nat} {w n : Nat}

section

variable (hf : Fair E) (hp : Pending hash s k (E.state n))

include hf hp

/-- A stage in which a worker stands at a given place lasts until the worker's own action. -/
theorem stage_of_worker (own : QueueAction) (Q : Queue cfg → Prop)
    (hgoal : ∀ q, k < poppedCount hash q s → Q q) {pc} (hpc : pc ≠ .idle)
    (hown : ∀ q a q', QueueStep cfg hash q a q' → q.workers w = pc → OwnAction w a → a = own)
    (hQ : ∀ q q', LogInv hash q → Pending hash s k q → q.workers w = pc →
      QueueStep cfg hash q own q' → Q q') (hw : (E.state n).workers w = pc) :
    ∃ i, n ≤ i ∧ Q (E.state i) := by
  obtain ⟨m, hnm, hm⟩ := hf.moves n w (hw ▸ hpc)
  refine E.eventually (fun q => Pending hash s k q ∧ q.workers w = pc) Q (OwnAction w)
    ?_ ?_ hnm hm ⟨hp, hw⟩
  · rintro q a q' hr ⟨hp, hw⟩ hs
    have hstep := queueStep_cases hs
    rcases pending_step (logInv_reachable hr) hp hstep with hp' | hk
    · rcases worker_step (queueInv_reachable hr) hstep (hw ▸ hpc) with hsame | hact
      · exact Or.inl ⟨hp', hsame.trans hw⟩
      · obtain rfl := hown q a q' hstep hw hact
        exact Or.inr (hQ q q' (logInv_reachable hr) hp hw hstep)
    · exact Or.inr (hgoal q' hk)
  · rintro q a q' hr ⟨hp, hw⟩ hact hs
    obtain rfl := hown q a q' (queueStep_cases hs) hw hact
    exact hQ q q' (logInv_reachable hr) hp hw (queueStep_cases hs)

/-- A worker that holds the shard pops a job. -/
theorem stage_holding (hw : (E.state n).workers w = .holding s) :
    ∃ i, n ≤ i ∧ k < poppedCount hash (E.state i) s := by
  refine stage_of_worker hf hp (.pop w) (fun q => k < poppedCount hash q s) (fun _ h => h) (by simp)
    ?_ ?_ hw
  · rintro q a q' hs hw (rfl | rfl | rfl)
    · rfl
    · cases hs
      simp_all
    · cases hs <;> simp_all
  · intro q q' hl hp hw hs
    cases hs with
    | popNone w t hw' hjobs =>
      rw [hw, holding.injEq] at hw'
      exact absurd (hw' ▸ hjobs) hp.1
    | popSome _ _ job _ hw' hjobs =>
      rw [hw, holding.injEq] at hw'
      subst hw'
      have hkey := hl.routed s job (by simp [hjobs])
      have hk := hp.2
      simp only [poppedCount, startedJobs_concat, startedJob?, onShard, hkey,
        decide_true, if_true, Option.toList_some, length_append, length_singleton]
        at hk ⊢
      omega

/-- A worker that executes a job of the shard comes back to it. -/
theorem stage_executing {job : PolicyUpdateJob} (hw : (E.state n).workers w = .executing s job) :
    ∃ i, n ≤ i ∧ k < poppedCount hash (E.state i) s := by
  have hback : ∃ i, n ≤ i ∧ ((Pending hash s k (E.state i) ∧
      (E.state i).workers w = .holding s) ∨ k < poppedCount hash (E.state i) s) := by
    refine stage_of_worker hf hp (.finish w)
      (fun q => (Pending hash s k q ∧ q.workers w = .holding s) ∨ k < poppedCount hash q s)
      (fun _ h => Or.inr h) (by simp) ?_ ?_ hw
    · rintro q a q' hs hw (rfl | rfl | rfl)
      · cases hs <;> simp_all
      · rfl
      · cases hs <;> simp_all
    · intro q q' hl hp hw hs
      refine (pending_step hl hp hs).imp_left fun hp' => ⟨hp', ?_⟩
      cases hs with
      | finish _ _ _ hw' =>
        rw [hw, executing.injEq] at hw'
        simp [hw'.1]
  obtain ⟨i, hni, ⟨hp', hw'⟩ | hk⟩ := hback
  · obtain ⟨j, hij, hk⟩ := stage_holding hf hp' hw'
    exact ⟨j, by omega, hk⟩
  · exact ⟨i, hni, hk⟩

/-- A worker that is about to release the shard finds the waiting job and makes it ready. -/
theorem stage_leaving (hw : (E.state n).workers w = .leaving s) :
    ∃ i, n ≤ i ∧ ((Pending hash s k (E.state i) ∧ s ∈ (E.state i).readyShardIds) ∨
      k < poppedCount hash (E.state i) s) := by
  refine stage_of_worker hf hp (.release w)
    (fun q => (Pending hash s k q ∧ s ∈ q.readyShardIds) ∨ k < poppedCount hash q s)
    (fun _ h => Or.inr h) (by simp) ?_ ?_ hw
  · rintro q a q' hs hw (rfl | rfl | rfl)
    · cases hs <;> simp_all
    · cases hs
      simp_all
    · rfl
  · intro q q' hl hp hw hs
    refine (pending_step hl hp hs).imp_left fun hp' => ⟨hp', ?_⟩
    cases hs with
    | releaseIdle _ _ _ hw' hjobs =>
      rw [hw, leaving.injEq] at hw'
      exact absurd (hw' ▸ hjobs) hp.1
    | releaseReady _ _ _ hw' =>
      rw [hw, leaving.injEq] at hw'
      exact mem_pushAbsent.mpr (Or.inr hw')

end

theorem queueMu_claimBegin (h : QueueStep cfg hash q (.claimBegin w) q') :
    q'.queueMu = some (.claiming w) := by
  cases h
  rfl

/-- Claims come again and again, and each of them looks at the front of the ready list. -/
theorem exists_claimVisit (hf : Fair E) (n : Nat) : ∃ m, n ≤ m ∧ E.action m = .claimVisit := by
  obtain ⟨m, hnm, w, hm⟩ := hf.claims n
  have hmu : (E.state (m + 1)).queueMu = some (.claiming w) :=
    queueMu_claimBegin (hm ▸ queueStep_cases (E.next m))
  obtain ⟨j, hj, hvisit⟩ := hf.visits (m + 1) w hmu
  exact ⟨j, by omega, hvisit⟩

/-- Behind `p` other shards in the ready list. -/
def ReadyAt (s : Fin cfg.shardCount) (p : Nat) (q : Queue cfg) : Prop :=
  ∃ pre post, q.readyShardIds = pre ++ s :: post ∧ pre.length = p

/-- A visit of the front erases the shard before it, or claims it. -/
theorem readyAt_claimVisit {p : Nat} (hi : QueueInv q) (hp : Pending hash s k q)
    (hr : ReadyAt s p q) (h : QueueStep cfg hash q .claimVisit q') :
    (∃ p' < p, ReadyAt s p' q') ∨ ∃ w, q'.workers w = .holding s := by
  obtain ⟨pre, post, hready, hlen⟩ := hr
  cases pre with
  | nil =>
    right
    cases h with
    | claimNone _ _ hnone => simp [hnone] at hready
    | claimDrop _ t rest state _ hready' hstate =>
      obtain ⟨rfl, -⟩ : t = s ∧ rest = post := by simpa [hready'] using hready
      -- a shard with waiting jobs is queued or draining, so it is not passed over
      have h1 := hi.readyClaimable t (by simp [hready'])
      have h2 := hi.notStopped t
      have h3 := hi.idleEmpty t
      rcases hstate with ⟨hempty, -⟩ | ⟨rfl, h4, h5⟩
      · exact absurd hempty hp.1
      · cases hs : (q.shards t).state <;> simp_all [Pending]
    | claimTake w t rest _ hready' =>
      obtain ⟨rfl, -⟩ : t = s ∧ rest = post := by simpa [hready'] using hready
      exact ⟨w, by simp⟩
  | cons x pre =>
    left
    have hrest : ∀ rest t, q.readyShardIds = t :: rest → ReadyAt s pre.length
        { q' with readyShardIds := rest } := by
      intro rest t hready'
      rw [hready, cons_append, List.cons.injEq] at hready'
      exact ⟨pre, post, hready'.2.symm, rfl⟩
    refine ⟨pre.length, by simp at hlen; omega, ?_⟩
    cases h with
    | claimNone _ _ hnone => simp [hnone] at hready
    | claimDrop w t rest state hmu hready'
    | claimTake w t rest hmu hready' => exact hrest rest t hready'

theorem readyAt_step {p : Nat} (hr : ReadyAt s p q) (h : QueueStep cfg hash q a q')
    (ha : a ≠ .claimVisit) : ReadyAt s p q' := by
  obtain ⟨pre, post, hready, hlen⟩ := hr
  rcases ready_step h with ⟨more, hmore⟩ | ⟨rfl, -⟩
  · exact ⟨pre, post ++ more, by simp [hmore, hready], hlen⟩
  · exact absurd rfl ha

/-- A shard in the ready list comes to the front and is claimed. -/
theorem stage_ready (hf : Fair E) (p n : Nat) (hp : Pending hash s k (E.state n))
    (hr : ReadyAt s p (E.state n)) :
    ∃ i, n ≤ i ∧ k < poppedCount hash (E.state i) s := by
  induction p using Nat.strong_induction_on generalizing n with
  | _ p ih =>
    obtain ⟨m, hnm, hm⟩ := exists_claimVisit hf n
    have hnext : ∃ i, n ≤ i ∧ ((Pending hash s k (E.state i) ∧
        ((∃ p' < p, ReadyAt s p' (E.state i)) ∨ ∃ w, (E.state i).workers w = .holding s)) ∨
        k < poppedCount hash (E.state i) s) := by
      have hvisit : ∀ q q', (queueSystem cfg hash).Reachable q → Pending hash s k q →
          ReadyAt s p q → QueueStep cfg hash q .claimVisit q' →
          (Pending hash s k q' ∧ ((∃ p' < p, ReadyAt s p' q') ∨
            ∃ w, q'.workers w = .holding s)) ∨ k < poppedCount hash q' s :=
        fun q q' hq hp hr hs => (pending_step (logInv_reachable hq) hp hs).imp_left
          fun hp' => ⟨hp', readyAt_claimVisit (queueInv_reachable hq) hp hr hs⟩
      refine E.eventually (fun q => Pending hash s k q ∧ ReadyAt s p q)
        (fun q => (Pending hash s k q ∧ ((∃ p' < p, ReadyAt s p' q) ∨
          ∃ w, q.workers w = .holding s)) ∨ k < poppedCount hash q s)
        (fun a => a = .claimVisit) ?_ ?_ hnm hm ⟨hp, hr⟩
      · rintro q a q' hq ⟨hp, hr⟩ hs
        have hstep := queueStep_cases hs
        by_cases ha : a = .claimVisit
        · subst ha
          exact Or.inr (hvisit q q' hq hp hr hstep)
        · rcases pending_step (logInv_reachable hq) hp hstep with hp' | hk
          · exact Or.inl ⟨hp', readyAt_step hr hstep ha⟩
          · exact Or.inr (Or.inr hk)
      · rintro q a q' hq ⟨hp, hr⟩ rfl hs
        exact hvisit q q' hq hp hr (queueStep_cases hs)
    obtain ⟨i, hni, ⟨hp', ⟨p', hlt, hr'⟩ | ⟨w, hw⟩⟩ | hk⟩ := hnext
    · obtain ⟨j, hij, hk⟩ := ih p' hlt i hp' hr'
      exact ⟨j, by omega, hk⟩
    · obtain ⟨j, hij, hk⟩ := stage_holding hf hp' hw
      exact ⟨j, by omega, hk⟩
    · exact ⟨i, hni, hk⟩

theorem stage_mem_ready (hf : Fair E) (hp : Pending hash s k (E.state n))
    (hr : s ∈ (E.state n).readyShardIds) : ∃ i, n ≤ i ∧ k < poppedCount hash (E.state i) s := by
  obtain ⟨pre, post, hready⟩ := append_of_mem hr
  exact stage_ready hf pre.length n hp ⟨pre, post, hready, rfl⟩

/-- From every state in which jobs wait in a shard, one of them is popped. -/
theorem pending_progress (hf : Fair E) (hp : Pending hash s k (E.state n)) :
    ∃ i, n ≤ i ∧ k < poppedCount hash (E.state i) s := by
  have hi := queueInv_reachable (E.reachable n)
  have hbusy : ((E.state n).shards s).state ≠ .idle := fun hidle => hp.1 (hi.idleEmpty s hidle)
  rcases hi.busySeen s hbusy with hready | ⟨w, hw⟩
  · exact stage_mem_ready hf hp hready
  cases hpc : (E.state n).workers w with
  | idle => simp [hpc, shard?] at hw
  | holding t =>
    obtain rfl : t = s := by simpa [hpc, shard?] using hw
    exact stage_holding hf hp hpc
  | executing t =>
    obtain rfl : t = s := by simpa [hpc, shard?] using hw
    exact stage_executing hf hp hpc
  | leaving t =>
    obtain rfl : t = s := by simpa [hpc, shard?] using hw
    obtain ⟨i, hni, ⟨hp', hr⟩ | hk⟩ := stage_leaving hf hp hpc
    · obtain ⟨j, hij, hk⟩ := stage_mem_ready hf hp' hr
      exact ⟨j, by omega, hk⟩
    · exact ⟨i, hni, hk⟩

end Stages

/-! ## Delivery -/

theorem log_step (h : QueueStep cfg hash q a q') : ∃ more, q'.log = q.log ++ more := by
  cases h with
  | accept | popSome | finish => exact ⟨_, rfl⟩
  | drainEnd => exact ⟨_, rfl⟩
  | _ => exact ⟨[], by simp⟩

/-- What was accepted up to a moment stays at its place. -/
theorem acceptedJobs_mono (E : (queueSystem cfg hash).Execution) (s : Fin cfg.shardCount)
    {n m : Nat} (hnm : n ≤ m) :
    acceptedJobs (onShard cfg hash s) (E.state n).log <+:
      acceptedJobs (onShard cfg hash s) (E.state m).log := by
  refine E.keeps (P := fun q => acceptedJobs (onShard cfg hash s) (E.state n).log <+:
    acceptedJobs (onShard cfg hash s) q.log) (fun q a q' _ hq hs => ?_) hnm (prefix_refl _)
  obtain ⟨more, hmore⟩ := log_step (queueStep_cases hs)
  rw [hmore, acceptedJobs_append]
  exact hq.trans (prefix_append ..)

/-- No update job is lost or repeated. In every reachable state a shard with waiting jobs is in the
    ready list or in the hands of a worker, the ready list holds no shard twice, the jobs popped from
    a shard are the first of those accepted for it, each once, and nothing is accepted after
    `begin_draining` has returned; and where workers keep claiming, every accepted job is popped. -/
theorem policyUpdates_delivered (cfg : PolicyUpdateQueueConfig) (hash : Text → Nat) :
    (∀ q, (queueSystem cfg hash).Reachable q →
      (∀ s, (q.shards s).jobs ≠ [] →
        s ∈ q.readyShardIds ∨ ∃ w, (q.workers w).shard? = some s) ∧
      q.readyShardIds.Nodup ∧
      (∀ s, startedJobs (onShard cfg hash s) q.log <+: acceptedJobs (onShard cfg hash s) q.log) ∧
      ∀ pre post, q.log = pre ++ .drained :: post → ∀ job, .accepted job ∉ post) ∧
    ∀ E : (queueSystem cfg hash).Execution, Fair E → ∀ (s) (n i : Nat) (job),
      (acceptedJobs (onShard cfg hash s) (E.state n).log)[i]? = some job →
      ∃ m, n ≤ m ∧ (startedJobs (onShard cfg hash s) (E.state m).log)[i]? = some job := by
  refine ⟨fun q hq => ?_, fun E hf s n i job hi => ?_⟩
  · have hi := queueInv_reachable hq
    have hl := logInv_reachable hq
    refine ⟨fun s hjobs => ?_, hi.readyNodup, fun s => ?_, hl.closedLog⟩
    · exact hi.busySeen s fun hidle => hjobs (hi.idleEmpty s hidle)
    · rw [hl.waiting s]
      exact prefix_append ..
  · -- induction on how many jobs must still be popped before the `i`-th
    obtain ⟨d, hd⟩ : ∃ d, d = i + 1 - poppedCount hash (E.state n) s := ⟨_, rfl⟩
    induction d using Nat.strong_induction_on generalizing n with
    | _ d ih =>
      have hwait := (logInv_reachable (E.reachable n)).waiting s
      by_cases hlt : i < poppedCount hash (E.state n) s
      · refine ⟨n, le_rfl, ?_⟩
        rwa [hwait, List.getElem?_append_left hlt] at hi
      · have hp : Pending hash s (poppedCount hash (E.state n) s) (E.state n) := by
          refine ⟨fun hnil => ?_, rfl⟩
          rw [hwait, hnil, append_nil] at hi
          have := (List.getElem?_eq_some_iff.mp hi).1
          exact hlt this
        obtain ⟨m, hnm, hk⟩ := pending_progress hf hp
        obtain ⟨more, hmore⟩ := acceptedJobs_mono E s hnm
        have hi' : (acceptedJobs (onShard cfg hash s) (E.state m).log)[i]? = some job := by
          rw [← hmore, List.getElem?_append_left (List.getElem?_eq_some_iff.mp hi).1, hi]
        obtain ⟨j, hmj, hj⟩ := ih (i + 1 - poppedCount hash (E.state m) s) (by omega) m hi' rfl
        exact ⟨j, by omega, hj⟩

/-! ## A fair run -/

/-- A job is accepted, worker 0 runs it, and from then on the worker claims in vain. -/
def deliveringActions : Nat → QueueAction
  | 0 => .enqueue (updateJob "a") 1 true
  | 1 => .claimBegin 0
  | 2 => .claimVisit
  | 3 => .pop 0
  | 4 => .finish 0
  | 5 => .pop 0
  | 6 => .release 0
  | n + 7 => if n % 2 = 0 then .claimBegin 0 else .claimVisit

abbrev oneShardSystem : System (Queue oneShard) QueueAction := queueSystem oneShard fun _ => 0

theorem delivering_idle (n : Nat) : ∃ q, oneShardSystem.stateAt deliveringActions (n + 7) = some q ∧
      q.workers 0 = .idle ∧ q.readyShardIds = [] ∧
      q.queueMu = if n % 2 = 0 then none else some (.claiming 0) := by
  induction n with
  | zero =>
    have h : ((oneShardSystem.stateAt deliveringActions 7).any fun q =>
        decide (q.workers 0 = .idle ∧ q.readyShardIds = [] ∧ q.queueMu = none)) := by
      decide +kernel
    obtain ⟨q, hq, hp⟩ := (Option.any_eq_true _ _).mp h
    exact ⟨q, hq, of_decide_eq_true hp⟩
  | succ n ih =>
    obtain ⟨q, hq, hw, hready, hmu⟩ := ih
    rw [show n + 1 + 7 = n + 7 + 1 by omega, System.stateAt, hq, Option.bind_some]
    by_cases hn : n % 2 = 0
    · refine ⟨{ q with queueMu := some (.claiming 0) }, ?_, hw, hready, ?_⟩
      · simp [deliveringActions, hn, queueSystem, queueStep, hmu, hw]
      · simp [show (n + 1) % 2 ≠ 0 by omega]
    · refine ⟨{ q with queueMu := none }, ?_, hw, hready, ?_⟩
      · simp [deliveringActions, hn, queueSystem, queueStep, hmu, PolicyUpdateQueue.claimVisit,
          hready]
      · simp [show (n + 1) % 2 = 0 by omega]

theorem delivering_isSome (n : Nat) : (oneShardSystem.stateAt deliveringActions n).isSome := by
  obtain ⟨q, hq, -⟩ := delivering_idle n
  exact System.stateAt_isSome_of_le (Nat.le_add_right n 7) (by simp [hq])

def delivering : oneShardSystem.Execution := .ofActions deliveringActions delivering_isSome

theorem delivering_others (n : Nat) : (∀ w, w ≠ 0 → (delivering.state n).workers w = .idle) ∧
      ∀ w, (delivering.state n).queueMu = some (.claiming w) → w = 0 := by
  induction n with
  | zero => exact ⟨fun _ _ => rfl, fun _ h => by simp [delivering.start, queueSystem,
      PolicyUpdateQueue.init] at h⟩
  | succ n ih =>
    obtain ⟨hidle, hmu⟩ := ih
    -- every action is one of a client or of worker 0
    have hact : ∀ w, deliveringActions n = .claimBegin w ∨ OwnAction w (deliveringActions n) →
        w = 0 := by
      intro w h
      unfold OwnAction at h
      unfold deliveringActions at h
      split at h <;> first | (split at h <;> simp_all) | simp_all
    have hstep := queueStep_cases (delivering.next n)
    generalize delivering.state (n + 1) = q' at hstep ⊢
    change QueueStep _ _ _ (deliveringActions n) q' at hstep
    generalize deliveringActions n = a at hstep hact
    cases hstep <;> grind [OwnAction, Function.update_apply]

theorem delivering_fair : Fair delivering where
  claims n := ⟨2 * n + 7, by omega, 0, by simp [delivering, System.Execution.ofActions,
    deliveringActions]⟩
  visits n w _ := ⟨2 * n + 1 + 7, by omega, by simp [delivering, System.Execution.ofActions,
    deliveringActions]⟩
  moves n w hw := by
    obtain rfl : w = 0 := by
      by_contra hne
      exact hw ((delivering_others n).1 w hne)
    have hn : n ≤ 6 := by
      by_contra hlt
      obtain ⟨d, rfl⟩ := Nat.exists_eq_add_of_le' (show 7 ≤ n by omega)
      obtain ⟨q, hq, hidle, -⟩ := delivering_idle d
      have := System.Execution.stateAt_ofActions delivering_isSome (d + 7)
      rw [hq, Option.some.injEq] at this
      exact hw (this ▸ hidle)
    exact ⟨6, hn, Or.inr (Or.inr rfl)⟩

/-- The job as the queue stores it. -/
def acceptedUpdateJob : PolicyUpdateJob :=
  { updateJob "a" with state := .queued, submittedAtUnixEpochMs := 1, updatedAtUnixEpochMs := 1 }

theorem policyUpdates_delivered_delivering :
    ∃ s m, (startedJobs (onShard oneShard (fun _ => 0) s) (delivering.state m).log)[0]? =
      some acceptedUpdateJob := by
  obtain ⟨m, -, hm⟩ := (policyUpdates_delivered oneShard fun _ => 0).2 delivering delivering_fair
    (computeShardId oneShard (fun _ => 0) []) 1 0 acceptedUpdateJob (by decide +kernel)
  exact ⟨_, m, hm⟩

end ByteTaper.ControlPlane
