import ByteTaper.Library.Transition

/-! # Programs over a shared store

A program is a tree of calls to a store that many programs share. Each call is atomic; between two
calls of a program the others may run, and a program may stop at any point. `Pool` is the state of
such a run.

`Keeps` is the proof rule. A `Contract` has an invariant of the store, an order in which the store
only grows, a guard on calls and an effect that every guarded call shall have. A program keeps the
contract if each of its calls does, in every store that has grown since its last call. A pool of
programs that keep a contract keeps it as a whole, in every interleaving. -/

namespace Shared

open Transition (System)

/-- What can be called. `Env` is what the outside decides about one call, and the answer is `none`
    if the call does not return. -/
structure Interface (σ : Type) where
  Call : Type
  Answer : Call → Type
  Env : Type
  perform : (c : Call) → Env → σ → Option (Answer c) × σ

variable {σ : Type}

inductive Program (I : Interface σ) (ρ : Type) where
  | done (result : ρ)
  | call (c : I.Call) (next : I.Answer c → Program I ρ)

variable {I : Interface σ} {ρ : Type}

/-- Run a program on its own; `none` if a call does not return. -/
def Program.exec (env : I.Env) : Program I ρ → σ → Option ρ × σ
  | .done result, s => (some result, s)
  | .call c next, s =>
    match I.perform c env s with
    | (none, s') => (none, s')
    | (some answer, s') => (next answer).exec env s'

variable {c : I.Call} {next : I.Answer c → Program I ρ} {env : I.Env}

theorem Program.exec_call_some {s t : σ} {answer : I.Answer c}
    (h : I.perform c env s = (some answer, t)) :
    (Program.call c next).exec env s = (next answer).exec env t := by
  rw [exec, h]

theorem Program.exec_call_none {s t : σ} (h : I.perform c env s = (none, t)) :
    (Program.call c next).exec env s = (none, t) := by
  rw [exec, h]

/-! ## Pools -/

/-- The store, and the rest of each running program. -/
structure Pool (I : Interface σ) (ρ : Type) where
  store : σ
  running : Nat → Option (Program I ρ)

/-- Start an operation, let a program make its next call, or stop it. -/
inductive Action (I : Interface σ) (π : Type) where
  | start (i : Nat) (op : π)
  | call (i : Nat) (env : I.Env)
  | stop (i : Nat)

namespace Pool

variable {π : Type}

def set (pool : Pool I ρ) (i : Nat) (p : Option (Program I ρ)) : Nat → Option (Program I ρ) :=
  fun j => if j = i then p else pool.running j

def step (body : π → Program I ρ) (pool : Pool I ρ) : Action I π → Option (Pool I ρ)
  | .start i op =>
    match pool.running i with
    | none => some { pool with running := pool.set i (some (body op)) }
    | some _ => none
  | .call i env =>
    match pool.running i with
    | some (.call c next) =>
      match I.perform c env pool.store with
      | (answer, store) => some { store, running := pool.set i (answer.map next) }
    | _ => none
  | .stop i => some { pool with running := pool.set i none }

def system (body : π → Program I ρ) (store : σ) : System (Pool I ρ) (Action I π) where
  init := { store, running := fun _ => none }
  step := step body

end Pool

/-! ## Contracts -/

structure Contract (I : Interface σ) where
  inv : σ → Prop
  grows : σ → σ → Prop
  guard : σ → I.Call → Prop
  effect : σ → I.Call → I.Env → Prop
  refl : ∀ s, grows s s
  trans : ∀ {s t u}, grows s t → grows t u → grows s u

namespace Contract

variable (C : Contract I)

/-- What one guarded call has to do. -/
structure Kept (s : σ) (c : I.Call) (env : I.Env) : Prop where
  inv : C.inv (I.perform c env s).2
  grows : C.grows s (I.perform c env s).2
  effect : C.effect s c env

/-- From the store `s` on, whatever other programs that keep the contract do to it, every guarded
    call of the program keeps the contract. -/
def Keeps : Program I ρ → σ → Prop
  | .done _, _ => True
  | .call c next, s =>
    ∀ t, C.grows s t → C.inv t → C.guard t c → ∀ env, C.Kept t c env ∧
      ∀ answer, (I.perform c env t).1 = some answer → Keeps (next answer) (I.perform c env t).2

variable {C}

theorem Keeps.mono {p : Program I ρ} {s t : σ} (h : C.Keeps p s) (hgrows : C.grows s t) :
    C.Keeps p t := by
  cases p with
  | done => trivial
  | call => exact fun u hu => h u (C.trans hgrows hu)

/-- The actions whose call, if they make one, meets the guard. -/
def Guarded {π : Type} (C : Contract I) (pool : Pool I ρ) : Action I π → Prop
  | .call i _ => ∀ c next, pool.running i = some (.call c next) → C.guard pool.store c
  | _ => True

instance {π : Type} (C : Contract I) [∀ s c, Decidable (C.guard s c)] (pool : Pool I ρ)
    (a : Action I π) : Decidable (C.Guarded pool a) :=
  match a with
  | .start _ _ => .isTrue trivial
  | .stop _ => .isTrue trivial
  | .call i _ =>
    match h : pool.running i with
    | some (.call c _) =>
      decidable_of_iff (C.guard pool.store c) <| by
        simp only [Guarded, h, Option.some.injEq, Program.call.injEq]
        exact ⟨fun hc _ _ heq => heq.1 ▸ hc, fun hc => hc _ _ ⟨rfl, HEq.rfl⟩⟩
    | some (.done _) => .isTrue (by simp [Guarded, h])
    | none => .isTrue (by simp [Guarded, h])

structure PoolKeeps (C : Contract I) (pool : Pool I ρ) : Prop where
  inv : C.inv pool.store
  keeps : ∀ i p, pool.running i = some p → C.Keeps p pool.store

section

variable {π : Type} {body : π → Program I ρ} {pool : Pool I ρ}

/-- A step changes the store by one guarded call, if at all. -/
theorem PoolKeeps.step (hbody : ∀ op s, C.inv s → C.Keeps (body op) s) {pool' : Pool I ρ}
    {a : Action I π} (h : C.PoolKeeps pool) (hguard : C.Guarded pool a)
    (hstep : Pool.step body pool a = some pool') :
    C.PoolKeeps pool' ∧ C.grows pool.store pool'.store := by
  cases a with
  | start i op =>
    simp only [Pool.step] at hstep
    split at hstep
    next =>
      obtain rfl := Option.some.inj hstep
      refine ⟨⟨h.inv, ?_⟩, C.refl _⟩
      intro j p hp
      simp only [Pool.set] at hp
      split at hp
      next => exact Option.some.inj hp ▸ hbody op _ h.inv
      next => exact h.keeps j p hp
    next => cases hstep
  | stop =>
    obtain rfl := Option.some.inj hstep
    refine ⟨⟨h.inv, ?_⟩, C.refl _⟩
    intro j p hp
    simp only [Pool.set] at hp
    split at hp
    next => cases hp
    next => exact h.keeps j p hp
  | call i env =>
    simp only [Pool.step] at hstep
    split at hstep
    next c next hi =>
      obtain rfl := Option.some.inj hstep
      obtain ⟨hkept, hnext⟩ := h.keeps i _ hi _ (C.refl _) h.inv (hguard c next hi) env
      refine ⟨⟨hkept.inv, ?_⟩, hkept.grows⟩
      intro j p hp
      simp only [Pool.set] at hp
      split at hp
      next =>
        obtain ⟨answer, hans, rfl⟩ := Option.map_eq_some_iff.mp hp
        exact hnext answer hans
      next => exact (h.keeps j p hp).mono hkept.grows
    next => cases hstep

/-- In every interleaving of programs that keep the contract, guarded calls keep it. -/
theorem poolKeeps_reachable (hbody : ∀ op s, C.inv s → C.Keeps (body op) s) {store : σ}
    (hstore : C.inv store) (h : (Pool.system body store).ReachableUnder C.Guarded pool) :
    C.PoolKeeps pool := by
  have hinit : C.PoolKeeps (Pool.system body store).init := ⟨hstore, by simp [Pool.system]⟩
  refine h.invariant hinit ?_
  intro pool a pool' hpool hguard hstep
  exact (hpool.step hbody hguard hstep).1

theorem PoolKeeps.effect (h : C.PoolKeeps pool) {i : Nat}
    (hi : pool.running i = some (.call c next)) (hguard : C.guard pool.store c) (env : I.Env) :
    C.effect pool.store c env :=
  (h.keeps i _ hi _ (C.refl _) h.inv hguard env).1.effect

end

end Contract

end Shared
