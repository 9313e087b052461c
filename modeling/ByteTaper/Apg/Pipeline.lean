import ByteTaper.Library.Text

/-! # Pipelines of stages

`pipeline.cpp`: the stages run one after the other, until one of them says that the rest is to be
skipped or fails. The trace of the run is left out. -/

namespace ByteTaper.Apg

open List
inductive StageResult where
  | continue | skipRemaining | error
deriving DecidableEq

structure StageOutput where
  result : StageResult
  note : Text := []

/-- Go on with the next stage. -/
def StageOutput.goOn (note : String) : StageOutput :=
  { result := .continue, note := Text.lit note }

variable {γ ι : Type}

def runPipeline (run : ι → γ → γ × StageOutput) : List ι → γ → γ × StageOutput
  | [], context => (context, { result := .continue })
  | [stage], context => run stage context
  | stage :: stages, context =>
    let (context, output) := run stage context
    if output.result = .continue then runPipeline run stages context else (context, output)

/-- The context behind a pipeline, stage by stage. -/
theorem runPipeline_cons_fst (run : ι → γ → γ × StageOutput) (stage : ι) (stages : List ι)
    (context : γ) :
    (runPipeline run (stage :: stages) context).1 = if (run stage context).2.result = .continue then
        (runPipeline run stages (run stage context).1).1
      else (run stage context).1 := by
  cases stages with
  | nil => simp [runPipeline]
  | cons next stages =>
    show (if (run stage context).2.result = .continue then
        runPipeline run (next :: stages) (run stage context).1 else run stage context).1 = _
    split <;> rfl

variable {run : ι → γ → γ × StageOutput} {P : γ → Prop} {stages : List ι} {context : γ}

/-- Stages that do nothing may be left out. -/
theorem runPipeline_filter {needed : ι → Bool}
    (hkeep : ∀ stage ∈ stages, ∀ context, P context → P (run stage context).1)
    (hskip : ∀ stage ∈ stages, needed stage = false → ∀ context, P context →
      (run stage context).1 = context ∧ (run stage context).2.result = .continue)
    (hctx : P context) :
    (runPipeline run (stages.filter needed) context).1 = (runPipeline run stages context).1 := by
  induction stages generalizing context with
  | nil => rfl
  | cons stage stages ih =>
    have hrest : ∀ {context : γ}, P context → (runPipeline run (stages.filter needed) context).1 =
          (runPipeline run stages context).1 :=
      ih (fun stage' hmem => hkeep stage' (mem_cons_of_mem _ hmem))
        (fun stage' hmem => hskip stage' (mem_cons_of_mem _ hmem))
    rw [runPipeline_cons_fst, filter_cons]
    cases hneeded : needed stage with
    | false =>
      obtain ⟨hsame, hcont⟩ := hskip stage mem_cons_self hneeded context hctx
      rw [if_pos hcont, hsame]
      exact hrest hctx
    | true =>
      rw [if_pos rfl, runPipeline_cons_fst, hrest (hkeep stage mem_cons_self _ hctx)]

/-- What every stage keeps, a pipeline keeps. -/
theorem runPipeline_invariant
    (h : ∀ stage ∈ stages, ∀ context, P context → P (run stage context).1) (hctx : P context) :
    P (runPipeline run stages context).1 := by
  fun_induction runPipeline run stages context with
  | case1 => exact hctx
  | case2 stage context => exact h stage (by simp) context hctx
  | case3 stage _ context _ _ _ hrun _ ih =>
    have hstage := h stage (by simp) context hctx
    rw [hrun] at hstage
    exact ih (fun stage' hmem => h stage' (mem_cons_of_mem _ hmem)) hstage
  | case4 stage _ context _ _ _ hrun =>
    have hstage := h stage (by simp) context hctx
    rw [hrun] at hstage
    exact hstage

end ByteTaper.Apg
