import ByteTaper.ControlPlane.PolicyUpdateSafety

/-! # The order in which update jobs run

The log of a run, cut down to the jobs of one shard or of one resource key. In every run the jobs
started on a shard are an initial part of the jobs accepted for it, in the same order. Where a shard
never has two workers, the starts and finishes alternate as well: the jobs of one resource key run
one after another. -/

namespace ByteTaper.ControlPlane

open List Function QueueEvent WorkerPc
open Transition (System)

/-! ## Cutting a log down -/

variable (sel : PolicyUpdateJob → Bool)

namespace QueueEvent

def acceptedJob? : QueueEvent → Option PolicyUpdateJob
  | .accepted job => if sel job then some job else none
  | _ => none

def startedJob? : QueueEvent → Option PolicyUpdateJob
  | .started job => if sel job then some job else none
  | _ => none

/-- The start or the finish of a selected job. -/
def ofRun : QueueEvent → Bool
  | .started job | .finished job => sel job
  | _ => false

end QueueEvent

variable (log : List QueueEvent)

def acceptedJobs : List PolicyUpdateJob :=
  log.filterMap (QueueEvent.acceptedJob? sel)

def startedJobs : List PolicyUpdateJob :=
  log.filterMap (QueueEvent.startedJob? sel)

def runEvents : List QueueEvent :=
  log.filter (QueueEvent.ofRun sel)

/-- The events of jobs that run one after another. -/
def serialised (jobs : List PolicyUpdateJob) : List QueueEvent :=
  jobs.flatMap fun job => [.started job, .finished job]

theorem serialised_append (l m : List PolicyUpdateJob) :
    serialised (l ++ m) = serialised l ++ serialised m := flatMap_append

theorem runEvents_append (l m : List QueueEvent) :
    runEvents sel (l ++ m) = runEvents sel l ++ runEvents sel m := filter_append ..

theorem runEvents_serialised (jobs : List PolicyUpdateJob) :
    runEvents sel (serialised jobs) = serialised (jobs.filter sel) := by
  induction jobs with
  | nil => rfl
  | cons job jobs ih =>
    have hcons : serialised (job :: jobs) = serialised [job] ++ serialised jobs := rfl
    rw [hcons, runEvents_append, ih, filter_cons]
    cases h : sel job <;> simp [runEvents, serialised, ofRun, h]

theorem runEvents_map_started (jobs : List PolicyUpdateJob) :
    runEvents sel (jobs.map .started) = (jobs.filter sel).map .started := by
  rw [runEvents, filter_map]
  rfl

variable {sel sel' : PolicyUpdateJob → Bool} {current : List PolicyUpdateJob}

/-- A narrower selection can be made in two stages. -/
theorem runEvents_runEvents (h : ∀ job, sel job → sel' job) (log : List QueueEvent) :
    runEvents sel (runEvents sel' log) = runEvents sel log := by
  unfold runEvents
  rw [filter_filter]
  apply filter_congr
  intro e _
  cases e with
  | started job | finished job => simpa [ofRun] using h job
  | _ => rfl

theorem acceptedJobs_filter (h : ∀ job, sel job → sel' job) (log : List QueueEvent) :
    (acceptedJobs sel' log).filter sel = acceptedJobs sel log := by
  unfold acceptedJobs
  rw [filter_filterMap]
  apply filterMap_congr
  intro e _
  cases e with
  | accepted job =>
    have hsel := h job
    cases hs : sel job <;> cases hs' : sel' job <;>
      simp_all [acceptedJob?, Option.filter]
  | _ => rfl

/-- A job that runs, behind the jobs that have run, is an initial part of a serial run. -/
theorem serialised_append_started_prefix (done current waiting : List PolicyUpdateJob)
    (h : current.length ≤ 1) :
    serialised done ++ current.map .started <+: serialised (done ++ (current ++ waiting)) := by
  rw [serialised_append, serialised_append]
  apply prefix_append_right_inj .. |>.mpr
  match current, h with
  | [], _ => simp
  | [job], _ => exact ⟨.finished job :: serialised waiting, rfl⟩

theorem acceptedJobs_append (sel : PolicyUpdateJob → Bool) (l m : List QueueEvent) :
    acceptedJobs sel (l ++ m) = acceptedJobs sel l ++ acceptedJobs sel m :=
  filterMap_append

section

variable (sel : PolicyUpdateJob → Bool) (log : List QueueEvent) (e : QueueEvent)

@[simp] theorem acceptedJobs_concat :
    acceptedJobs sel (log ++ [e]) = acceptedJobs sel log ++ (e.acceptedJob? sel).toList := by
  rw [acceptedJobs_append]
  cases h : e.acceptedJob? sel <;> simp [acceptedJobs, h]

@[simp] theorem startedJobs_concat :
    startedJobs sel (log ++ [e]) = startedJobs sel log ++ (e.startedJob? sel).toList := by
  rw [startedJobs, filterMap_append]
  cases h : e.startedJob? sel <;> simp [startedJobs, h]

@[simp] theorem runEvents_concat :
    runEvents sel (log ++ [e]) = runEvents sel log ++ if e.ofRun sel then [e] else [] := by
  rw [runEvents_append]
  cases h : e.ofRun sel <;> simp [runEvents, h]

end

/-! ## Accepted jobs are started in order, once -/

variable {cfg : PolicyUpdateQueueConfig} {hash : Text → Nat} {q q' : Queue cfg} {a : QueueAction}

variable (cfg hash) in
/-- The jobs whose resource key belongs to shard `s`. -/
def onShard (s : Fin cfg.shardCount) (job : PolicyUpdateJob) : Bool :=
  computeShardId cfg hash job.resourceKey = s

variable (hash) in
structure LogInv (q : Queue cfg) : Prop where
  routed : ∀ s, ∀ job ∈ (q.shards s).jobs, computeShardId cfg hash job.resourceKey = s
  routedRunning : ∀ w s job, q.workers w = .executing s job →
    computeShardId cfg hash job.resourceKey = s
  /-- What has been accepted for a shard is what has been started on it and what waits there. -/
  waiting : ∀ s, acceptedJobs (onShard cfg hash s) q.log =
    startedJobs (onShard cfg hash s) q.log ++ (q.shards s).jobs
  drainedLog : .drained ∈ q.log → q.draining = true
  closedLog : ∀ pre post, q.log = pre ++ .drained :: post → ∀ job, .accepted job ∉ post

theorem logInv_init : LogInv hash (.init : Queue cfg) := by
  constructor <;> simp [PolicyUpdateQueue.init, acceptedJobs, startedJobs]

section

variable (hl : LogInv hash q) (h : QueueStep cfg hash q a q')

include hl h

theorem LogInv.routed_step (t : Fin cfg.shardCount) (job : PolicyUpdateJob)
    (hj : job ∈ (q'.shards t).jobs) : computeShardId cfg hash job.resourceKey = t := by
  have hold := hl.routed t job
  cases h with
  | accept _ _ _ _ s _ _ hkey =>
    by_cases hts : t = s
    · subst hts
      simp only [update_self, mem_append, mem_singleton] at hj
      rcases hj with hj | rfl
      · exact hold hj
      · exact hkey
    · exact hold (by simpa [hts] using hj)
  | popSome _ s _ _ _ hjobs =>
    by_cases hts : t = s
    · subst hts
      simp only [update_self] at hj
      exact hold (by simp [hjobs, hj])
    · exact hold (by simpa [hts] using hj)
  | drainMark s | claimDrop _ s | claimTake _ s | releaseIdle _ s | releaseReady _ s =>
    by_cases hts : t = s
    · subst hts
      simp only [update_self] at hj
      exact hold hj
    · exact hold (by simpa [hts] using hj)
  | _ => exact hold hj

theorem LogInv.routedRunning_step (v : Nat) (t : Fin cfg.shardCount) (job : PolicyUpdateJob)
    (hv : q'.workers v = .executing t job) : computeShardId cfg hash job.resourceKey = t := by
  have hold := hl.routedRunning v t job
  cases h with
  | popSome w s job' _ _ hjobs =>
    by_cases hvw : v = w
    · subst hvw
      simp only [update_self, executing.injEq] at hv
      obtain ⟨rfl, rfl⟩ := hv
      exact hl.routed s job' (by simp [hjobs])
    · exact hold (by simpa [hvw] using hv)
  | claimTake w | popNone w | finish w | releaseIdle w | releaseReady w =>
    by_cases hvw : v = w
    · subst hvw
      simp at hv
    · exact hold (by simpa [hvw] using hv)
  | _ => exact hold hv

theorem LogInv.waiting_step (t : Fin cfg.shardCount) : acceptedJobs (onShard cfg hash t) q'.log =
      startedJobs (onShard cfg hash t) q'.log ++ (q'.shards t).jobs := by
  have hold := hl.waiting t
  cases h with
  | accept _ _ _ job' s _ _ hkey =>
    by_cases hts : t = s
    · subst hts
      simp [hold, acceptedJob?, startedJob?, onShard, hkey]
    · have hne : computeShardId cfg hash job'.resourceKey ≠ t := hkey ▸ Ne.symm hts
      simp [hold, acceptedJob?, startedJob?, onShard, hne, hts]
  | popSome _ s job' _ _ hjobs =>
    have hkey := hl.routed s job' (by simp [hjobs])
    by_cases hts : t = s
    · subst hts
      simp [hold, acceptedJob?, startedJob?, onShard, hkey, hjobs]
    · have hne : computeShardId cfg hash job'.resourceKey ≠ t := hkey ▸ Ne.symm hts
      simp [hold, acceptedJob?, startedJob?, onShard, hne, hts]
  | finish | drainEnd => simp [hold, acceptedJob?, startedJob?]
  | drainMark s | claimDrop _ s | claimTake _ s | releaseIdle _ s | releaseReady _ s =>
    by_cases hts : t = s
    · subst hts
      simp [hold]
    · simp [hold, hts]
  | _ => exact hold

theorem LogInv.drainedLog_step (hi : QueueInv q) (hlog : .drained ∈ q'.log) : q'.draining := by
  have hold := hl.drainedLog
  cases h with
  | drainEnd next hmu => exact hi.drainer next hmu
  | _ => simp_all

end

/-- An event behind the others keeps a log closed if it is no acceptance after a drain. -/
theorem closedLog_concat {log : List QueueEvent} {e : QueueEvent}
    (hold : ∀ pre post, log = pre ++ .drained :: post → ∀ job, .accepted job ∉ post)
    (he : .drained ∈ log → ∀ job, e ≠ .accepted job) (pre post : List QueueEvent)
    (h : log ++ [e] = pre ++ .drained :: post) (job : PolicyUpdateJob) :
    .accepted job ∉ post := by
  rcases eq_nil_or_concat post with rfl | ⟨post', e', rfl⟩
  · simp
  rw [concat_eq_append, ← cons_append, ← append_assoc] at h
  obtain ⟨hlog, hlast⟩ := append_inj' h rfl
  obtain rfl : e = e' := by simpa using hlast
  have hne := he (by simp [hlog]) job
  simp only [concat_eq_append, mem_append, mem_singleton, not_or]
  exact ⟨hold pre post' hlog job, fun heq => hne heq.symm⟩

theorem LogInv.closedLog_step (hl : LogInv hash q) (h : QueueStep cfg hash q a q')
    (pre post : List QueueEvent) (hlog : q'.log = pre ++ .drained :: post)
    (job : PolicyUpdateJob) : .accepted job ∉ post := by
  cases h with
  | accept =>
    refine closedLog_concat hl.closedLog (fun hmem => ?_) pre post hlog job
    have := hl.drainedLog hmem
    simp_all
  | drainEnd | popSome | finish =>
    exact closedLog_concat hl.closedLog (fun _ _ => by simp) pre post hlog job
  | _ => exact hl.closedLog pre post hlog job

theorem LogInv.step (hl : LogInv hash q) (hi : QueueInv q) (h : QueueStep cfg hash q a q') :
    LogInv hash q' where
  routed := hl.routed_step h
  routedRunning := hl.routedRunning_step h
  waiting := hl.waiting_step h
  drainedLog := hl.drainedLog_step h hi
  closedLog := hl.closedLog_step h

theorem logInv_reachable (h : (queueSystem cfg hash).Reachable q) : LogInv hash q := by
  have hboth : QueueInv q ∧ LogInv hash q := by
    refine h.invariant (P := fun q => QueueInv q ∧ LogInv hash q) ⟨queueInv_init, logInv_init⟩ ?_
    rintro s a t ⟨hi, hl⟩ - hs
    exact ⟨hi.step (queueStep_cases hs), hl.step hi (queueStep_cases hs)⟩
  exact hboth.2

/-! ## Jobs of one shard run one after another -/

/-- `current` is the job that a worker is executing on shard `s`, if there is one. -/
def Running (q : Queue cfg) (s : Fin cfg.shardCount) (current : List PolicyUpdateJob) : Prop :=
  (current = [] ∧ ∀ w job, q.workers w ≠ .executing s job) ∨
    ∃ w job, q.workers w = .executing s job ∧ current = [job]

variable (hash) in
/-- The jobs started on a shard have run one after another, and the last may still be running. -/
def SerialOn (q : Queue cfg) (s : Fin cfg.shardCount) : Prop :=
  ∃ done current, startedJobs (onShard cfg hash s) q.log = done ++ current ∧
    runEvents (onShard cfg hash s) q.log = serialised done ++ current.map .started ∧
    Running q s current

variable {s t : Fin cfg.shardCount} {w : Nat} {job : PolicyUpdateJob}

theorem Running.length_le (h : Running q s current) : current.length ≤ 1 := by
  rcases h with ⟨rfl, -⟩ | ⟨w, job, -, rfl⟩ <;> simp

theorem SerialOn.of_same (h : SerialOn hash q t)
    (hstarted : startedJobs (onShard cfg hash t) q'.log = startedJobs (onShard cfg hash t) q.log)
    (hrun : runEvents (onShard cfg hash t) q'.log = runEvents (onShard cfg hash t) q.log)
    (hsame : ∀ w job, q'.workers w = .executing t job ↔ q.workers w = .executing t job) :
    SerialOn hash q' t := by
  obtain ⟨done, current, hs, hr, hcur⟩ := h
  refine ⟨done, current, hstarted.trans hs, hrun.trans hr, ?_⟩
  -- a worker that neither starts nor ends an execution does not change what runs
  rcases hcur with ⟨hnil, hnone⟩ | ⟨w, job, hw, hcur⟩
  · exact Or.inl ⟨hnil, fun w job hw => hnone w job ((hsame w job).mp hw)⟩
  · exact Or.inr ⟨w, job, (hsame w job).mpr hw, hcur⟩

/-- Replacing where a worker stands by another place outside an execution on `t`. -/
theorem executing_update_iff {pc}
    (hold : ∀ job, q.workers w ≠ .executing t job) (hnew : ∀ job, pc ≠ .executing t job) (v : Nat)
    (job : PolicyUpdateJob) :
    update q.workers w pc v = .executing t job ↔ q.workers v = .executing t job := by
  by_cases hv : v = w
  · subst hv
    simp [hold, hnew]
  · simp [hv]

theorem SerialOn.start (h : SerialOn hash q s) (hx : Exclusive q) (hw : q.workers w = .holding s)
    (hkey : computeShardId cfg hash job.resourceKey = s) (hlog : q'.log = q.log ++ [.started job])
    (hwks : q'.workers = update q.workers w (.executing s job)) :
    SerialOn hash q' s := by
  obtain ⟨done, current, hs, hr, hcur⟩ := h
  -- the worker that starts the job is the only one on the shard, so nothing is running yet
  have hnil : current = [] := by
    rcases hcur with ⟨hnil, -⟩ | ⟨w', job', hw', -⟩
    · exact hnil
    · have huniq := (hx w s (by simp [hw, shard?])).2.2 w' (by simp [hw', shard?])
      subst huniq
      simp [hw] at hw'
  subst hnil
  refine ⟨done, [job], ?_, ?_, Or.inr ⟨w, job, by simp [hwks], rfl⟩⟩
  · simp [hlog, hs, startedJob?, onShard, hkey]
  · simp [hlog, hr, ofRun, onShard, hkey]

theorem SerialOn.finish (h : SerialOn hash q s) (hx : Exclusive q)
    (hw : q.workers w = .executing s job) (hkey : computeShardId cfg hash job.resourceKey = s)
    (hlog : q'.log = q.log ++ [.finished job])
    (hwks : q'.workers = update q.workers w (.holding s)) : SerialOn hash q' s := by
  obtain ⟨done, current, hs, hr, hcur⟩ := h
  have huniq : ∀ w' job', q.workers w' = .executing s job' → w' = w := fun w' job' hw' =>
    (hx w s (by simp [hw, shard?])).2.2 w' (by simp [hw', shard?])
  have hcurrent : current = [job] := by
    rcases hcur with ⟨-, hnone⟩ | ⟨w', job', hw', hcur⟩
    · exact absurd hw (hnone w job)
    · obtain rfl := huniq w' job' hw'
      simp_all
  subst hcurrent
  refine ⟨done ++ [job], [], ?_, ?_, Or.inl ⟨rfl, fun w' job' hw' => ?_⟩⟩
  · simp [hlog, hs, startedJob?]
  · simp [hlog, hr, ofRun, onShard, hkey, serialised]
  · rw [hwks] at hw'
    by_cases hww : w' = w
    · subst hww
      simp at hw'
    · exact hww (huniq w' job' (by simpa [hww] using hw'))

theorem serialOn_step (hi : QueueInv q) (hl : LogInv hash q) (hx : Exclusive q)
    (t : Fin cfg.shardCount) (hser : SerialOn hash q t) (h : QueueStep cfg hash q a q') :
    SerialOn hash q' t := by
  cases h with
  | accept | drainEnd =>
    refine hser.of_same ?_ ?_ fun _ _ => Iff.rfl
    · simp [startedJob?]
    · simp [ofRun]
  | claimTake w _ _ hmu =>
    refine hser.of_same rfl rfl (executing_update_iff (fun job => ?_) (by simp))
    simp [hi.claimer w hmu]
  | popNone w s hw | releaseIdle w s _ hw | releaseReady w s _ hw =>
    exact hser.of_same rfl rfl (executing_update_iff (by simp [hw]) (by simp))
  | popSome _ s job _ hw hjobs =>
    have hkey := hl.routed s job (by simp [hjobs])
    by_cases hts : t = s
    · subst hts
      exact hser.start hx hw hkey rfl rfl
    · have hne : computeShardId cfg hash job.resourceKey ≠ t := hkey ▸ Ne.symm hts
      refine hser.of_same ?_ ?_ (executing_update_iff (by simp [hw]) fun job' heq => ?_)
      · simp [startedJob?, onShard, hne]
      · simp [ofRun, onShard, hne]
      · simp only [executing.injEq] at heq
        exact hts heq.1.symm
  | finish w s job hw =>
    have hkey := hl.routedRunning w s job hw
    by_cases hts : t = s
    · subst hts
      exact hser.finish hx hw hkey rfl rfl
    · have hne : computeShardId cfg hash job.resourceKey ≠ t := hkey ▸ Ne.symm hts
      refine hser.of_same ?_ ?_ (executing_update_iff (fun job' heq => ?_) (by simp))
      · simp [startedJob?]
      · simp [ofRun, onShard, hne]
      · simp only [hw, executing.injEq] at heq
        exact hts heq.1.symm
  | _ => exact hser.of_same rfl rfl fun _ _ => Iff.rfl

theorem serialOn_reachable (h : (queueSystem cfg hash).ReachableUnder DrainsUnclaimed q)
    (s : Fin cfg.shardCount) : SerialOn hash q s := by
  have hall : QueueInv q ∧ LogInv hash q ∧ Exclusive q ∧ ∀ s, SerialOn hash q s := by
    refine h.invariant
      (P := fun q => QueueInv q ∧ LogInv hash q ∧ Exclusive q ∧ ∀ s, SerialOn hash q s)
      ⟨queueInv_init, logInv_init, queueInv_init.exclusive rfl, fun s => ?_⟩ ?_
    · exact ⟨[], [], rfl, rfl, Or.inl ⟨rfl, by simp [queueSystem, PolicyUpdateQueue.init]⟩⟩
    · rintro q a q' ⟨hi, hl, hx, hser⟩ hg hs
      have hstep := queueStep_cases hs
      exact ⟨hi.step hstep, hl.step hi hstep, exclusive_step hi hstep hx hg,
        fun s => serialOn_step hi hl hx s (hser s) hstep⟩
  exact hall.2.2.2 s

/-! ## Jobs of one resource key -/

/-- The jobs of a resource key. -/
def ofKey (key : Text) (job : PolicyUpdateJob) : Bool := job.resourceKey = key

/-- What is serial on the shard of a key is serial for the key. -/
theorem SerialOn.ofKey {key : Text} (hl : LogInv hash q)
    (h : SerialOn hash q (computeShardId cfg hash key)) :
    runEvents (ofKey key) q.log <+: serialised (acceptedJobs (ofKey key) q.log) := by
  obtain ⟨done, current, hs, hr, hcur⟩ := h
  have hsel : ∀ job, ControlPlane.ofKey key job →
      onShard cfg hash (computeShardId cfg hash key) job := by
    intro job hjob
    simp_all [ControlPlane.ofKey, onShard]
  have hacc := hl.waiting (computeShardId cfg hash key)
  rw [hs] at hacc
  rw [← runEvents_runEvents hsel, hr, ← acceptedJobs_filter hsel, hacc, runEvents_append,
    runEvents_serialised, runEvents_map_started, filter_append, filter_append,
    append_assoc]
  refine serialised_append_started_prefix _ _ _ (le_trans (length_filter_le ..) ?_)
  exact hcur.length_le

/-- In every run in which `begin_draining` reaches no shard with waiting jobs while a worker holds
    it, no shard is ever in the hands of two workers, and the starts and finishes of the jobs of a
    resource key are those of its accepted jobs run one after another, as far as they have come. -/
theorem policyUpdates_serialised (cfg : PolicyUpdateQueueConfig) (hash : Text → Nat)
    (q : Queue cfg) (h : (queueSystem cfg hash).ReachableUnder DrainsUnclaimed q) :
    (∀ s w w', (q.workers w).shard? = some s → (q.workers w').shard? = some s → w = w') ∧
    ∀ key, runEvents (ofKey key) q.log <+: serialised (acceptedJobs (ofKey key) q.log) :=
  ⟨fun s w w' hw hw' => (exclusive_reachable h w' s hw').2.2 w hw,
    fun _ => (serialOn_reachable h _).ofKey (logInv_reachable h.reachable)⟩

/-- One shard, room for two jobs. -/
def oneShard : PolicyUpdateQueueConfig :=
  { logicalShardCount := 1, maxQueueDepthPerShard := 2, hasJobStore := true }

def updateJob (jobId : String) : PolicyUpdateJob :=
  { jobId := lit jobId, resourceKey := lit "policy/default/runtime" }

/-- Two jobs of one resource are accepted, and a worker runs one after the other. Draining begins while it
    runs the second, with no job waiting. -/
def serialRun : List QueueAction :=
  [.enqueue (updateJob "a") 1 true, .enqueue (updateJob "b") 2 true, .claimBegin 0, .claimVisit,
    .pop 0, .finish 0, .pop 0, .beginDraining, .drainVisit, .drainVisit, .finish 0]

theorem policyUpdates_serialised_serialRun :
    ∃ q, (queueSystem oneShard fun _ => 0).Reachable q ∧ q.draining = true ∧
      (runEvents (ofKey (lit "policy/default/runtime")) q.log).length = 4 ∧
      runEvents (ofKey (lit "policy/default/runtime")) q.log <+:
        serialised (acceptedJobs (ofKey (lit "policy/default/runtime")) q.log) := by
  obtain ⟨q, hq, hdrain, hlen⟩ : ∃ q, (queueSystem oneShard fun _ => 0).ReachableUnder
      (fun q a => a = .drainVisit → ∀ s, (q.shards s).jobs = []) q ∧ q.draining = true ∧
      (runEvents (ofKey (lit "policy/default/runtime")) q.log).length = 4 :=
    System.exists_guardedRun serialRun (by decide +kernel)
  refine ⟨q, hq.reachable, hdrain, hlen, (policyUpdates_serialised oneShard (fun _ => 0) q ?_).2 _⟩
  exact hq.mono fun _ _ hempty hvisit s _ hjobs => absurd (hempty hvisit s) hjobs

/-- Draining begins while worker 0 holds the shard with a job waiting; worker 1 claims it too. -/
def overlappingRun : List QueueAction :=
  [.enqueue (updateJob "a") 1 true, .enqueue (updateJob "b") 2 true, .claimBegin 0, .claimVisit,
    .beginDraining, .drainVisit, .drainVisit, .claimBegin 1, .claimVisit, .pop 0, .pop 1]

/-- Both workers are inside the shard, and the second job starts before the first has finished. -/
theorem policyUpdates_overlap :
    ∃ q, (queueSystem oneShard fun _ => 0).run overlappingRun = some q ∧
      ((q.workers 0).shard? = (q.workers 1).shard? ∧ (q.workers 0).shard?.isSome) ∧
      ¬ (runEvents (ofKey (lit "policy/default/runtime")) q.log <+:
        serialised (acceptedJobs (ofKey (lit "policy/default/runtime")) q.log)) := by
  exact System.exists_run (by decide +kernel)

end ByteTaper.ControlPlane
