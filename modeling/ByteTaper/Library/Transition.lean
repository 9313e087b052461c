import Mathlib.Data.Nat.Basic
import Mathlib.Data.List.Basic

/-! # Transition systems

A system is an initial state and a partial step function: `step s a = none` says that the action
`a` is not enabled in `s`. Safety is proved with `ReachableUnder.invariant`, over the runs whose
every step meets a guard in the state before it. For liveness an `Execution` is an infinite run,
and `Execution.eventually` is the rule for one helpful action: what holds stays until the action
comes, and the action then reaches the goal. -/

namespace Transition

open Option
structure System (σ α : Type) where
  init : σ
  step : σ → α → Option σ

namespace System

variable {σ α : Type} (M : System σ α)

/-- Follow a list of actions; `none` if one of them is not enabled. -/
def runFrom (s : σ) : List α → Option σ
  | [] => some s
  | a :: as => (M.step s a).bind fun t => runFrom t as

def run (as : List α) : Option σ := M.runFrom M.init as

/-- The states reached by runs in which every step meets `guard` in the state before it. -/
inductive ReachableUnder (guard : σ → α → Prop) : σ → Prop where
  | init : ReachableUnder guard M.init
  | step {s t : σ} {a : α} : ReachableUnder guard s → guard s a → M.step s a = some t →
      ReachableUnder guard t

/-- The states reached by any run. -/
abbrev Reachable : σ → Prop := M.ReachableUnder fun _ _ => True

variable {M} {guard : σ → α → Prop} {s : σ} {as : List α}

section

variable (h : M.ReachableUnder guard s)

include h

/-- What holds initially and is kept by every guarded step holds in every state reached. -/
theorem ReachableUnder.invariant {P : σ → Prop} (hinit : P M.init)
    (hstep : ∀ s a t, P s → guard s a → M.step s a = some t → P t) : P s := by
  induction h with
  | init => exact hinit
  | step _ hg hs ih => exact hstep _ _ _ ih hg hs

theorem ReachableUnder.mono {guard'} (hguard : ∀ s a, guard s a → guard' s a) :
    M.ReachableUnder guard' s :=
  h.invariant .init fun s a _ hr hg hs => hr.step (hguard s a hg) hs

theorem ReachableUnder.reachable : M.Reachable s :=
  h.mono fun _ _ _ => trivial

/-- A map that takes every step to a step of another system, or to none at all. -/
theorem ReachableUnder.map {τ β : Type} {N : System τ β} (f : σ → τ) (hinit : f M.init = N.init)
    (hstep : ∀ s a t, M.step s a = some t → f t = f s ∨ ∃ b, N.step (f s) b = some (f t)) :
    N.Reachable (f s) := by
  refine h.invariant (P := fun s => N.Reachable (f s)) (hinit ▸ .init) ?_
  intro s a t hs _ hst
  rcases hstep s a t hst with hsame | ⟨b, hb⟩
  · exact hsame ▸ hs
  · exact hs.step trivial hb

end

theorem ReachableUnder.of_runFrom {t : σ} (hs : M.ReachableUnder guard s)
    (hguard : ∀ a ∈ as, ∀ u, guard u a) (h : M.runFrom s as = some t) :
    M.ReachableUnder guard t := by
  induction as generalizing s with
  | nil =>
    simp only [runFrom, Option.some.injEq] at h
    exact h ▸ hs
  | cons a _ ih =>
    simp only [runFrom, bind_eq_some_iff] at h
    obtain ⟨u, hu, h⟩ := h
    exact ih (hs.step (hguard a (by simp) s) hu) (fun b hb => hguard b (by simp [hb])) h

/-- A run whose actions all meet the guard in every state ends in a state reached under it. -/
theorem ReachableUnder.of_run {t : σ} (hguard : ∀ a ∈ as, ∀ u, guard u a) (h : M.run as = some t) :
    M.ReachableUnder guard t :=
  ReachableUnder.init.of_runFrom hguard h

/-- Evaluate a run: it ends, in a state with the decidable property `p`. -/
theorem exists_run {p : σ → Prop} [DecidablePred p]
    (h : ((M.run as).any fun t => decide (p t))) : ∃ t, M.run as = some t ∧ p t := by
  obtain ⟨t, ht, hp⟩ := (any_eq_true _ _).mp h
  exact ⟨t, ht, of_decide_eq_true hp⟩

variable (M) in
/-- Follow a list of actions as long as they meet the guard. -/
def guardedRunFrom (guard : σ → α → Prop) [∀ s a, Decidable (guard s a)] (s : σ) :
    List α → Option σ
  | [] => some s
  | a :: as =>
    if guard s a then (M.step s a).bind fun t => guardedRunFrom guard t as else none

theorem ReachableUnder.of_guardedRunFrom [∀ s a, Decidable (guard s a)] {t : σ}
    (hs : M.ReachableUnder guard s) (h : M.guardedRunFrom guard s as = some t) :
    M.ReachableUnder guard t := by
  induction as generalizing s with
  | nil =>
    simp only [guardedRunFrom, Option.some.injEq] at h
    exact h ▸ hs
  | cons _ _ ih =>
    rw [guardedRunFrom] at h
    split at h
    next hguard =>
      obtain ⟨u, hu, h⟩ := bind_eq_some_iff.mp h
      exact ih (hs.step hguard hu) h
    next => cases h

/-- Evaluate a run together with its guard. -/
theorem exists_guardedRun [∀ s a, Decidable (guard s a)] (as : List α) {p : σ → Prop}
    [DecidablePred p] (h : ((M.guardedRunFrom guard M.init as).any fun t => decide (p t))) :
    ∃ t, M.ReachableUnder guard t ∧ p t := by
  obtain ⟨t, ht, hp⟩ := (any_eq_true _ _).mp h
  exact ⟨t, ReachableUnder.init.of_guardedRunFrom ht, of_decide_eq_true hp⟩

/-! ## Infinite runs -/

variable (M) in
structure Execution where
  state : Nat → σ
  action : Nat → α
  start : state 0 = M.init
  next : ∀ n, M.step (state n) (action n) = some (state (n + 1))

namespace Execution

variable (E : Execution M)

theorem reachable (n : Nat) : M.Reachable (E.state n) := by
  induction n with
  | zero => exact E.start ▸ .init
  | succ n ih => exact ih.step trivial (E.next n)

/-- A property that every step keeps, once reached, holds ever after. -/
theorem keeps {P : σ → Prop} (hstep : ∀ s a t, M.Reachable s → P s → M.step s a = some t → P t)
    {n m : Nat} (hnm : n ≤ m) (hP : P (E.state n)) : P (E.state m) := by
  induction hnm with
  | refl => exact hP
  | step _ ih => exact hstep _ _ _ (E.reachable _) ih (E.next _)

/-- If every step from `P` keeps `P` or reaches `Q`, a helpful action reaches `Q`, and a helpful
    action comes, then `Q` is reached. -/
theorem eventually (P Q : σ → Prop) (helpful : α → Prop)
    (hstay : ∀ s a t, M.Reachable s → P s → M.step s a = some t → P t ∨ Q t)
    (hhelp : ∀ s a t, M.Reachable s → P s → helpful a → M.step s a = some t → Q t)
    {n m : Nat} (hnm : n ≤ m) (hm : helpful (E.action m)) (hP : P (E.state n)) :
    ∃ k, n ≤ k ∧ Q (E.state k) := by
  -- induction on the number of steps left until the helpful action
  obtain ⟨d, rfl⟩ := Nat.exists_eq_add_of_le hnm
  clear hnm
  induction d generalizing n with
  | zero => exact ⟨n + 1, by omega, hhelp _ _ _ (E.reachable n) hP hm (E.next n)⟩
  | succ d ih =>
    rcases hstay _ _ _ (E.reachable n) hP (E.next n) with h | h
    · obtain ⟨k, hk, hQ⟩ := ih h (by rwa [show n + 1 + d = n + (d + 1) by omega])
      exact ⟨k, by omega, hQ⟩
    · exact ⟨n + 1, by omega, h⟩

end Execution

variable (M) in
/-- The state before the `n`-th of infinitely many actions. -/
def stateAt (actions : Nat → α) : Nat → Option σ
  | 0 => some M.init
  | n + 1 => (stateAt actions n).bind fun s => M.step s (actions n)

theorem stateAt_isSome_of_le {actions : Nat → α} {n m : Nat} (hnm : n ≤ m)
    (h : (M.stateAt actions m).isSome) : (M.stateAt actions n).isSome := by
  induction hnm with
  | refl => exact h
  | step _ ih =>
    apply ih
    rw [stateAt, isSome_bind] at h
    exact isSome_of_any h

/-- The infinite run along actions that are always enabled. -/
def Execution.ofActions (actions : Nat → α) (h : ∀ n, (M.stateAt actions n).isSome) :
    M.Execution where
  state n := (M.stateAt actions n).get (h n)
  action := actions
  start := rfl
  next n := by
    have hn := h (n + 1)
    simp only [stateAt]
    obtain ⟨s, hs⟩ := Option.isSome_iff_exists.mp (h n)
    simp only [stateAt, hs, Option.bind_some] at hn ⊢
    simp

theorem Execution.stateAt_ofActions {actions : Nat → α}
    (h : ∀ n, (M.stateAt actions n).isSome) (n : Nat) :
    M.stateAt actions n = some ((Execution.ofActions actions h).state n) := by
  simp [Execution.ofActions]

end System

end Transition
