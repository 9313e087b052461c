import Mathlib.Data.List.Basic

/-! # Sequences of calls

An object with a function that gives the next state and the answer for each call. A run keeps the
history of the calls and their answers, so that a specification can speak about them; `Along` says that
each call meets a condition in the state it is made in. -/

namespace Calls

open List
variable {σ α β : Type} (step : σ → α → σ × β)

def runFrom (s : σ) (history : List (α × β)) : List α → σ × List (α × β)
  | [] => (s, history)
  | call :: calls => runFrom (step s call).1 (history ++ [(call, (step s call).2)]) calls

/-- The state after the calls, and the calls with their answers. -/
def run (s : σ) (calls : List α) : σ × List (α × β) := runFrom step s [] calls

/-- Each call meets the condition in the state it is made in. -/
def Along (guard : σ → α → Prop) (s : σ) : List α → Prop
  | [] => True
  | call :: calls => guard s call ∧ Along guard (step s call).1 calls

instance Along.decidable (guard : σ → α → Prop) [∀ s call, Decidable (guard s call)] (s : σ) :
    (calls : List α) → Decidable (Along step guard s calls)
  | [] => inferInstanceAs (Decidable True)
  | call :: calls =>
    have := Along.decidable guard (step s call).1 calls
    inferInstanceAs (Decidable (_ ∧ _))

variable {step} {guard guard' : σ → α → Prop} {s : σ} {calls : List α}

theorem along_of_forall (h : ∀ call ∈ calls, ∀ s, guard s call) : Along step guard s calls := by
  induction calls generalizing s with
  | nil => trivial
  | cons call _ ih =>
    exact ⟨h call mem_cons_self s, ih fun call' hcall' => h call' (mem_cons_of_mem _ hcall')⟩

theorem Along.and (h : Along step guard s calls) (h' : Along step guard' s calls) :
    Along step (fun s call => guard s call ∧ guard' s call) s calls := by
  induction calls generalizing s with
  | nil => trivial
  | cons _ _ ih => exact ⟨⟨h.1, h'.1⟩, ih h.2 h'.2⟩

theorem runFrom_length (history : List (α × β)) :
    (runFrom step s history calls).2.length = history.length + calls.length := by
  induction calls generalizing s history with
  | nil => rfl
  | cons _ _ ih =>
    rw [runFrom, ih, length_append, length_singleton, length_cons]
    omega

/-- What every call keeps, made in a state where it meets its condition, holds after the calls. -/
theorem run_invariant {P : σ → List (α × β) → Prop}
    (hstep : ∀ s history call, guard s call → P s history →
      P (step s call).1 (history ++ [(call, (step s call).2)]))
    (hguard : Along step guard s calls) (h : P s []) :
    P (run step s calls).1 (run step s calls).2 := by
  unfold run
  generalize ([] : List (α × β)) = history at h ⊢
  induction calls generalizing s history with
  | nil => exact h
  | cons call _ ih => exact ih hguard.2 _ (hstep s history call hguard.1 h)

/-- An object that a view of its states takes to another one is answered as that one, call by call. -/
theorem run_view {τ : Type} {other} (view : σ → τ) {P : σ → Prop}
    (hstep : ∀ s call, guard s call → P s → P (step s call).1 ∧
      other (view s) call = (view (step s call).1, (step s call).2))
    (hguard : Along step guard s calls) (h : P s) :
    P (run step s calls).1 ∧ (run step s calls).2 = (run other (view s) calls).2 := by
  unfold run
  generalize ([] : List (α × β)) = history
  induction calls generalizing s history with
  | nil => exact ⟨h, rfl⟩
  | cons call _ ih =>
    obtain ⟨hnext, hview⟩ := hstep s call hguard.1 h
    simp only [runFrom, hview]
    exact ih hguard.2 hnext _

end Calls
