import Mathlib.Data.Int.Notation
import Mathlib.Data.List.Basic
import GoEtl.Text.Space

/-!
# The stages of a workflow

`internal/workflow/stage.go`: the steps of a workflow are grouped into stages. Consecutive steps with the
same `parallel_with` label form one stage, every other step is a stage of its own, and a label that was
left is closed: it may not come back.

**`normalizeStages_staged`** says what the stages of an accepted workflow are: numbered from zero, none
of them empty, and together the steps of the workflow in their order.
-/

namespace GoEtl.Workflow

open Text

/-- A step of a workflow: what the stages depend on. -/
structure Step where
  (id parallelWith : String)
  deriving DecidableEq, Repr

/-- `Workflow`: its id, its steps and the text of everything else. -/
structure WorkflowDefinition where
  id : String
  steps : List Step
  source : String
  deriving DecidableEq, Repr

/-- `WorkflowStageStep`. -/
structure StageStep where
  (stageIndex stepIndex : ℤ)
  stepId : String
  deriving DecidableEq, Repr

/-- `WorkflowStage`. -/
structure Stage where
  index : ℤ
  parallelWith : String
  steps : List StageStep
  deriving DecidableEq, Repr

/-- The variables of the loop of `NormalizeStages`. -/
structure Normalizing where
  /-- The stages so far. -/
  stages : List Stage
  /-- `currentLabel`. -/
  label : String
  /-- `closedParallelWith`. -/
  closed : List String
  /-- `seenStepID`. -/
  seen : List String
  deriving DecidableEq, Repr

/-- The closed labels once the current one is left. -/
def Normalizing.close (st : Normalizing) : List String :=
  if st.label = "" then st.closed else st.label :: st.closed

/-- The stages with a new one for a step. -/
def Normalizing.opened (st : Normalizing) (index : ℕ) (step : Step) (label : String) : List Stage :=
  st.stages ++ [⟨st.stages.length, label, [⟨st.stages.length, index, step.id⟩]⟩]

/-- Add a step to the last stage. -/
def addToLast (label : String) (index : ℕ) (stepId : String) : List Stage → List Stage
  | [] => []
  | [last] => [⟨last.index, label, last.steps ++ [⟨last.index, index, stepId⟩]⟩]
  | stage :: next :: rest => stage :: addToLast label index stepId (next :: rest)

/-- One round of the loop of `NormalizeStages`. -/
def normalizeStep (st : Normalizing) (index : ℕ) (step : Step) : Except String Normalizing :=
  let label := trimSpace step.parallelWith
  let seen := step.id :: st.seen
  if st.seen.contains step.id then .error ("duplicate workflow step id: " ++ step.id)
  else if label = "" then .ok ⟨st.opened index step "", "", st.close, seen⟩
  else if st.closed.contains label then
    .error ("workflow parallel_with label reused after close: " ++ label)
  else if label = st.label ∧ st.stages ≠ [] then
    .ok { st with stages := addToLast label index step.id st.stages, seen := seen }
  else .ok ⟨st.opened index step label, label, st.close, seen⟩

/-- The loop of `NormalizeStages`. -/
def normalizeFrom (st : Normalizing) (index : ℕ) : List Step → Except String Normalizing
  | [] => .ok st
  | step :: steps => do normalizeFrom (← normalizeStep st index step) (index + 1) steps

/-- `NormalizeStages`. -/
def normalizeStages (workflow : WorkflowDefinition) : Except String (List Stage) :=
  if workflow.steps.isEmpty then .error "workflow has no steps"
  else do
    let st ← normalizeFrom ⟨[], "", [], []⟩ 0 workflow.steps
    pure st.stages

/-! ### What the stages are -/

/-- The steps of stages, in order. -/
def stageSteps (stages : List Stage) : List StageStep := stages.flatMap (·.steps)

/-- Stages that hold these steps in order. -/
structure Staged (steps : List Step) (stages : List Stage) : Prop where
  /-- The stages are numbered from zero. -/
  index : stages.map (·.index) = (List.range stages.length).map (Nat.cast : ℕ → ℤ)
  /-- No stage is empty. -/
  nonempty : ∀ s ∈ stages, s.steps ≠ []
  /-- A step knows its stage. -/
  stage : ∀ s ∈ stages, ∀ t ∈ s.steps, t.stageIndex = s.index
  /-- The steps are numbered from zero. -/
  stepIndex : (stageSteps stages).map (·.stepIndex) = (List.range steps.length).map (Nat.cast : ℕ → ℤ)
  /-- The steps are the workflow's. -/
  stepId : (stageSteps stages).map (·.stepId) = steps.map (·.id)

variable {steps : List Step} {stages : List Stage} {step : Step}

/-- A new stage for the next step. -/
theorem Staged.opened (h : Staged steps stages) (label : String) :
    Staged (steps ++ [step])
      (stages ++ [⟨stages.length, label, [⟨stages.length, steps.length, step.id⟩]⟩]) where
  index := by simp [h.index, List.range_succ]
  nonempty := by
    intro s hs
    rcases List.mem_append.1 hs with hs | hs
    · exact h.nonempty s hs
    · simp [List.mem_singleton.1 hs]
  stage := by
    intro s hs t ht
    rcases List.mem_append.1 hs with hs | hs
    · exact h.stage s hs t ht
    · rw [List.mem_singleton.1 hs] at ht ⊢
      rw [List.mem_singleton.1 ht]
  stepIndex := by
    have := h.stepIndex
    simp_all [stageSteps, List.range_succ]
  stepId := by
    have := h.stepId
    simp_all [stageSteps]

/-- Adding to the last stage changes the last stage only. -/
theorem addToLast_eq (label stepId : String) (index : ℕ) (hstages : stages ≠ []) :
    ∃ earlier last, stages = earlier ++ [last] ∧
      addToLast label index stepId stages =
        earlier ++ [⟨last.index, label, last.steps ++ [⟨last.index, index, stepId⟩]⟩] := by
  induction stages with
  | nil => exact absurd rfl hstages
  | cons s rest ih =>
    cases rest with
    | nil => exact ⟨[], s, rfl, rfl⟩
    | cons s' rest =>
      obtain ⟨earlier, last, heq, hadd⟩ := ih (by simp)
      exact ⟨s :: earlier, last, by rw [heq, List.cons_append], by rw [addToLast, hadd, List.cons_append]⟩

/-- The next step in the last stage. -/
theorem Staged.added (h : Staged steps stages) (label : String) (hstages : stages ≠ []) :
    Staged (steps ++ [step]) (addToLast label steps.length step.id stages) := by
  obtain ⟨earlier, last, rfl, hadd⟩ := addToLast_eq label step.id steps.length hstages
  rw [hadd]
  have hlast : ∀ s ∈ earlier, s ∈ earlier ++ [last] := fun s hs => List.mem_append_left _ hs
  constructor
  · have := h.index
    simp_all
  · intro s hs
    rcases List.mem_append.1 hs with hs | hs
    · exact h.nonempty s (hlast s hs)
    · simp [List.mem_singleton.1 hs]
  · intro s hs t ht
    rcases List.mem_append.1 hs with hs | hs
    · exact h.stage s (hlast s hs) t ht
    · rw [List.mem_singleton.1 hs] at ht ⊢
      rcases List.mem_append.1 ht with ht | ht
      · exact h.stage last (by simp) t ht
      · rw [List.mem_singleton.1 ht]
  · have := h.stepIndex
    simp_all [stageSteps, List.range_succ]
    rw [← List.append_assoc, this]
  · have := h.stepId
    simp_all [stageSteps]
    rw [← List.append_assoc, this]

/-- One round keeps the stages those of the steps so far. -/
theorem normalizeStep_staged {st st' : Normalizing} (h : Staged steps st.stages)
    (hstep : normalizeStep st steps.length step = .ok st') : Staged (steps ++ [step]) st'.stages := by
  simp only [normalizeStep] at hstep
  split at hstep
  · cases hstep
  · split at hstep
    · cases hstep
      exact h.opened ""
    · split at hstep
      · cases hstep
      · split at hstep
        · rename_i hlabel
          cases hstep
          exact h.added _ hlabel.2
        · cases hstep
          exact h.opened _

theorem normalizeFrom_staged {st st' : Normalizing} {rest : List Step} (h : Staged steps st.stages)
    (hloop : normalizeFrom st steps.length rest = .ok st') : Staged (steps ++ rest) st'.stages := by
  induction rest generalizing steps st with
  | nil =>
    cases hloop
    simpa using h
  | cons step rest ih =>
    cases hstep : normalizeStep st steps.length step with
    | error e =>
      simp [normalizeFrom, hstep, bind, Except.bind] at hloop
    | ok next =>
      have hnext := normalizeStep_staged h hstep
      have hrest : normalizeFrom next (steps ++ [step]).length rest = .ok st' := by
        simpa [normalizeFrom, hstep, bind, Except.bind] using hloop
      simpa using ih hnext hrest

/-- **Normalisation**: an accepted workflow's stages are numbered from zero, not empty, and hold its
steps in order. -/
theorem normalizeStages_staged {workflow : WorkflowDefinition} (h : normalizeStages workflow = .ok stages) :
    Staged workflow.steps stages := by
  unfold normalizeStages at h
  split at h
  · cases h
  · cases hloop : normalizeFrom ⟨[], "", [], []⟩ 0 workflow.steps with
    | error e => simp [hloop, bind, Except.bind] at h
    | ok st =>
      have hstages : st.stages = stages := by
        simpa [hloop, bind, Except.bind, pure, Except.pure] using h
      have hempty : Staged [] ([] : List Stage) := ⟨rfl, by simp, by simp, rfl, rfl⟩
      rw [← hstages]
      have hall : Staged ([] ++ workflow.steps) st.stages := normalizeFrom_staged hempty hloop
      simpa using hall

/-! ### The order of the steps -/

theorem Staged.getElem_index (h : Staged steps stages) {n : ℕ} (hn : n < stages.length) :
    (stages.get ⟨n, hn⟩).index = n := by
  have heq := congrArg (fun indexes => indexes[n]?) h.index
  simpa [hn] using heq

/-- Stages are numbered from zero. -/
theorem Staged.stageIndex_nonneg (h : Staged steps stages) {t : StageStep} (ht : t ∈ stageSteps stages) :
    0 ≤ t.stageIndex := by
  obtain ⟨s, hs, ht⟩ := List.mem_flatMap.1 ht
  obtain ⟨n, hn, rfl⟩ := List.getElem_of_mem hs
  rw [h.stage _ hs t ht]
  exact (h.getElem_index hn).symm ▸ Int.natCast_nonneg n

/-- Every stage before a stage has a step. -/
theorem Staged.exists_step (h : Staged steps stages) {t : StageStep} (ht : t ∈ stageSteps stages) {k : ℤ} (hk : 0 ≤ k)
    (hlt : k ≤ t.stageIndex) : ∃ t' ∈ stageSteps stages, t'.stageIndex = k := by
  obtain ⟨s, hs, hts⟩ := List.mem_flatMap.1 ht
  obtain ⟨n, hn, rfl⟩ := List.getElem_of_mem hs
  obtain ⟨m, rfl⟩ := Int.eq_ofNat_of_zero_le hk
  rw [h.stage _ hs t hts] at hlt
  have hm : m < stages.length := by
    have hindex : (stages.get ⟨n, hn⟩).index = n := h.getElem_index hn
    have hmn : (m : ℤ) ≤ n := hindex ▸ hlt
    omega
  have hmem := List.getElem_mem hm
  obtain ⟨t', ht'⟩ := List.exists_mem_of_ne_nil _ (h.nonempty _ hmem)
  exact ⟨t', List.mem_flatMap.2 ⟨_, hmem, ht'⟩, (h.stage _ hmem t' ht').trans (h.getElem_index hm)⟩

/-- The steps of an earlier stage come first. -/
theorem Staged.stepIndex_lt (h : Staged steps stages) {t t' : StageStep} (ht : t ∈ stageSteps stages)
    (ht' : t' ∈ stageSteps stages) (hlt : t.stageIndex < t'.stageIndex) : t.stepIndex < t'.stepIndex := by
  have hsorted : (stageSteps stages).Pairwise fun a b => a.stepIndex < b.stepIndex := by
    have hrange : ((List.range steps.length).map (Nat.cast : ℕ → ℤ)).Pairwise (· < ·) := by
      rw [List.pairwise_map]
      exact List.pairwise_lt_range.imp fun hab => by exact_mod_cast hab
    rw [← h.stepIndex, List.pairwise_map] at hrange
    exact hrange
  have hstages := (List.pairwise_flatMap.1 hsorted).2
  obtain ⟨s, hs, hts⟩ := List.mem_flatMap.1 ht
  obtain ⟨s', hs', hts'⟩ := List.mem_flatMap.1 ht'
  rw [h.stage s hs t hts, h.stage s' hs' t' hts'] at hlt
  obtain ⟨n, hn, rfl⟩ := List.getElem_of_mem hs
  obtain ⟨m, hm, rfl⟩ := List.getElem_of_mem hs'
  have hnm : n < m := by
    have hlt : (stages.get ⟨n, hn⟩).index < (stages.get ⟨m, hm⟩).index := hlt
    rw [h.getElem_index hn, h.getElem_index hm] at hlt
    exact_mod_cast hlt
  exact List.pairwise_iff_getElem.1 hstages n m hn hm hnm t hts t' hts'

end GoEtl.Workflow
