import Mathlib.Data.List.Basic

/-! # A server with several first-in first-out lanes

Jobs are accepted into lanes; the server takes the first job of any lane it likes and executes it
before it takes another. Jobs of one lane are executed in the order of their acceptance. Jobs of
different lanes may overtake each other, so a class of jobs keeps its order if at no time two lanes
hold jobs of the class. -/

@[ext] structure Lanes (ι α : Type) where
  accepted : List α
  executed : List α
  current : Option α
  lane : ι → List α

namespace Lanes

open List Function
variable {ι α : Type}

/-- One step: a job is accepted into a lane (the label says which), taken from one, or executed. -/
inductive Step [DecidableEq ι] (L : Lanes ι α) : Option (ι × α) → Lanes ι α → Prop where
  | accept (i : ι) (x : α) :
      Step L (some (i, x))
        { L with
          accepted := L.accepted ++ [x]
          lane := Function.update L.lane i (L.lane i ++ [x]) }
  | take (i : ι) (x : α) (rest : List α) (hlane : L.lane i = x :: rest) (hidle : L.current = none) :
      Step L none { L with current := some x, lane := Function.update L.lane i rest }
  | execute (x : α) (hcurrent : L.current = some x) :
      Step L none { L with current := none, executed := L.executed ++ [x] }

variable {L : Lanes ι α} {p : α → Bool}

theorem Step.of_eq [DecidableEq ι] {L' L'' : Lanes ι α} {l : Option (ι × α)} (h : L.Step l L')
    (heq : L'' = L') : L.Step l L'' :=
  heq ▸ h

/-- The jobs of the class `p` have kept their order, and at most one lane holds any. -/
structure Ordered (p : α → Bool) (L : Lanes ι α) (i : ι) : Prop where
  others : ∀ j, j ≠ i → (L.lane j).filter p = []
  log : L.accepted.filter p =
    L.executed.filter p ++ L.current.toList.filter p ++ (L.lane i).filter p

/-- A job of the class may enter the lane: no other lane holds one. -/
def Admits (p : α → Bool) (L : Lanes ι α) : Option (ι × α) → Prop
  | none => True
  | some (i, x) => p x = true → ∀ j, j ≠ i → (L.lane j).filter p = []

/-- If the lane `i` holds none of the class, the class may be looked for in any other lane. -/
theorem Ordered.move {i j : ι} (h : L.Ordered p i) (hj : ∀ k, k ≠ j → (L.lane k).filter p = []) :
    L.Ordered p j := by
  refine ⟨hj, ?_⟩
  by_cases hij : j = i
  · exact hij ▸ h.log
  · rw [h.log, h.others j hij, hj i (Ne.symm hij)]

theorem Ordered.step [DecidableEq ι] {L' : Lanes ι α} {l : Option (ι × α)} {i : ι}
    (h : L.Ordered p i) (hfits : L.Admits p l) (hstep : L.Step l L') : ∃ j, L'.Ordered p j := by
  cases hstep with
  | accept j x =>
    cases hx : p x with
    | true =>
      -- the class lives in the lane the job enters
      have hj := h.move (hfits hx)
      refine ⟨j, fun k hk => ?_, ?_⟩
      · simpa [update_of_ne hk] using hj.others k hk
      · simp [hj.log]
    | false =>
      refine ⟨i, fun k hk => ?_, ?_⟩
      · by_cases hkj : k = j
        · subst hkj
          simpa [hx] using h.others k hk
        · simpa [update_of_ne hkj] using h.others k hk
      · by_cases hij : i = j
        · subst hij
          simp [h.log, hx]
        · simp [h.log, hx, update_of_ne hij]
  | take j x _ hlane hidle =>
    refine ⟨i, fun k hk => ?_, ?_⟩
    · by_cases hkj : k = j
      · subst hkj
        have := h.others k hk
        rw [hlane, filter_cons] at this
        split at this
        · cases this
        · simpa using this
      · simpa [update_of_ne hkj] using h.others k hk
    · by_cases hij : i = j
      · subst hij
        rw [h.log, hidle, hlane]
        by_cases hx : p x <;> simp [hx]
      · have hx : p x = false := by
          have := h.others j (Ne.symm hij)
          rw [hlane, filter_cons] at this
          split at this
          · cases this
          · simpa using ‹¬ p x = true›
        simp [h.log, hidle, hx, update_of_ne hij]
  | execute x hcur =>
    refine ⟨i, h.others, ?_⟩
    simp [h.log, hcur]

/-- Once the server is idle and its lanes are empty, the class has been executed in order. -/
theorem Ordered.done {i : ι} (h : L.Ordered p i) (hidle : L.current = none)
    (hempty : L.lane i = []) : L.executed.filter p = L.accepted.filter p := by
  simp [h.log, hidle, hempty]

theorem Ordered.executed_initial {i : ι} (h : L.Ordered p i) :
    L.executed.filter p <+: L.accepted.filter p := by
  rw [h.log, append_assoc]
  exact prefix_append _ _

end Lanes
