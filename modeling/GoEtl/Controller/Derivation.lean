import GoEtl.Controller.DependencyPlan

/-!
# What a derived plan shows

The states of a plan that is derived from the rows of a run alone, without a stored plan: which steps and
stages are blocked, which are completed, and when the whole run is. A stored plan that has failed makes
the plan fail; every other result here is about plans that have not failed, and such a plan was derived
without a stored one.
-/

namespace GoEtl.Controller

open Library Persistence

/-! ### Steps -/

variable {workItems : List DependencyMembership} {hasOutputFact : Bool}

/-- A step is blocked exactly if nothing is recorded of it. -/
theorem deriveDependencyStepState_blocked :
    deriveDependencyStepState workItems hasOutputFact = .blocked ↔ workItems = [] ∧ hasOutputFact = false := by
  constructor
  · intro h
    simp only [deriveDependencyStepState] at h
    split at h
    · cases h
    · rename_i hfailed
      split at h
      · cases h
      · rename_i hdone
        split at h
        · cases h
        · rename_i hactive
          split at h
          · cases h
          · rename_i hqueued
            refine ⟨List.eq_nil_iff_forall_not_mem.2 fun m hm => ?_, by simp_all⟩
            simp only [List.any_eq_true, not_exists, not_and] at hfailed hactive hqueued
            have h₁ := hfailed m hm
            have h₂ := hactive m hm
            have h₃ := hqueued m hm
            cases hstate : m.state <;> simp_all [WorkItemMembershipState.isSuccess]
  · rintro ⟨rfl, rfl⟩
    rfl

/-- A step is completed exactly if none of its work items failed and it has an output fact, or work items
that all ended well. -/
theorem deriveDependencyStepState_completed :
    deriveDependencyStepState workItems hasOutputFact = .completed ↔
      (∀ m ∈ workItems, m.state ≠ .failed) ∧
        (hasOutputFact = true ∨ (workItems ≠ [] ∧ ∀ m ∈ workItems, m.state.isSuccess = true)) := by
  unfold deriveDependencyStepState
  by_cases hfailed : workItems.any (·.state == .failed) = true
  · rw [if_pos hfailed]
    simp only [List.any_eq_true, beq_iff_eq] at hfailed
    obtain ⟨m, hm, hstate⟩ := hfailed
    simp only [reduceCtorEq, false_iff, not_and]
    exact fun h => absurd hstate (h m hm)
  · rw [if_neg hfailed]
    have hnone : ∀ m ∈ workItems, m.state ≠ .failed := by simpa using hfailed
    by_cases hdone : (hasOutputFact || (!workItems.isEmpty && workItems.all (·.state.isSuccess))) = true
    · rw [if_pos hdone]
      simp only [true_iff]
      exact ⟨hnone, by simpa using hdone⟩
    · rw [if_neg hdone]
      have hne : ¬ (hasOutputFact = true ∨ (workItems ≠ [] ∧ ∀ m ∈ workItems, m.state.isSuccess = true)) := by
        simpa using hdone
      constructor
      · intro h
        split at h
        · cases h
        · split at h <;> cases h
      · exact fun h => absurd h.2 hne

theorem deriveDependencyStepState_failed :
    deriveDependencyStepState workItems hasOutputFact = .failed ↔ ∃ m ∈ workItems, m.state = .failed := by
  unfold deriveDependencyStepState
  by_cases hfailed : workItems.any (·.state == .failed) = true
  · rw [if_pos hfailed]
    simpa using hfailed
  · rw [if_neg hfailed]
    constructor
    · intro h
      split at h
      · cases h
      · split at h
        · cases h
        · split at h <;> cases h
    · rintro ⟨m, hm, hstate⟩
      simp only [List.any_eq_true, beq_iff_eq, not_exists, not_and] at hfailed
      exact absurd hstate (hfailed m hm)

/-! ### Stages and the run -/

section States

variable {steps : List DependencyStep} {isEarliestStage : Bool}

theorem deriveDependencyStageState_failed :
    deriveDependencyStageState steps isEarliestStage = .failed ↔ ∃ s ∈ steps, s.state = .failed := by
  unfold deriveDependencyStageState
  constructor
  · intro h
    split at h
    · split at h <;> cases h
    · split at h
      · rename_i hany
        simpa using hany
      · split at h
        · cases h
        · split at h
          · cases h
          · split at h <;> cases h
  · rintro ⟨s, hs, hstate⟩
    have hne : steps.isEmpty = false := by simpa using List.ne_nil_of_mem hs
    have hany : steps.any (·.state == .failed) = true := List.any_eq_true.2 ⟨s, hs, by simpa using hstate⟩
    simp [hne, hany]

/-- A stage is completed exactly if it has steps and all of them are. -/
theorem deriveDependencyStageState_completed :
    deriveDependencyStageState steps isEarliestStage = .completed ↔
      steps ≠ [] ∧ ∀ s ∈ steps, s.state = .completed := by
  unfold deriveDependencyStageState
  constructor
  · intro h
    split at h
    · split at h <;> cases h
    · rename_i hne
      split at h
      · cases h
      · split at h
        · rename_i hall
          exact ⟨by simpa using hne, by simpa using hall⟩
        · split at h
          · cases h
          · split at h <;> cases h
  · rintro ⟨hne, hall⟩
    have hnone : steps.any (·.state == .failed) = false := by
      rw [List.any_eq_false]
      intro s hs
      simp [hall s hs]
    have hevery : steps.all (·.state == .completed) = true := by simpa using hall
    simp [hne, hnone, hevery]

/-- A stage that is not the first one is blocked exactly if all its steps are. -/
theorem deriveDependencyStageState_blocked :
    deriveDependencyStageState steps isEarliestStage = .blocked ↔
      isEarliestStage = false ∧ ∀ s ∈ steps, s.state = .blocked := by
  unfold deriveDependencyStageState
  constructor
  · intro h
    split at h
    · rename_i hempty
      split at h
      · cases h
      · exact ⟨by simp_all, by simp_all⟩
    · split at h
      · cases h
      · rename_i hfailed
        split at h
        · cases h
        · split at h
          · cases h
          · rename_i hactive
            split at h
            · cases h
            · rename_i hready
              simp only [Bool.or_eq_true, not_or, Bool.not_eq_true] at hready
              refine ⟨hready.2, fun s hs => ?_⟩
              have h₁ := List.any_eq_false.1 (Bool.eq_false_iff.2 hfailed) s hs
              have h₂ := List.any_eq_false.1 (Bool.eq_false_iff.2 hactive) s hs
              have h₃ := List.any_eq_false.1 hready.1 s hs
              cases hstate : s.state <;> simp_all
  · rintro ⟨rfl, hall⟩
    rcases steps with - | ⟨s, steps⟩
    · rfl
    · have hany : ∀ p : DependencyStep → Bool, (∀ x, x.state = .blocked → p x = false) →
          (s :: steps).any p = false := by
        intro p hp
        rw [List.any_eq_false]
        exact fun x hx => by simp [hp x (hall x hx)]
      have hs : s.state = .blocked := hall s List.mem_cons_self
      rw [hany _ (by simp_all), hany _ (by simp_all), hany _ (by simp_all)]
      simp [hs]

end States

theorem deriveDependencyWorkflowState_failed {stages : List DependencyStage} :
    deriveDependencyWorkflowState stages = .failed ↔ ∃ s ∈ stages, s.state = .failed := by
  unfold deriveDependencyWorkflowState
  by_cases h : stages.any (·.state == .failed) = true
  · rw [if_pos h]
    simpa using h
  · rw [if_neg h]
    simp only [List.any_eq_true, beq_iff_eq] at h
    split <;> simpa using h

theorem deriveDependencyWorkflowState_completed {stages : List DependencyStage} :
    deriveDependencyWorkflowState stages = .completed ↔ stages ≠ [] ∧ ∀ s ∈ stages, s.state = .completed := by
  unfold deriveDependencyWorkflowState
  constructor
  · intro h
    split at h
    · cases h
    · split at h
      · rename_i hall
        simpa using hall
      · cases h
  · rintro ⟨hne, hall⟩
    have hnone : stages.any (·.state == .failed) = false := by
      rw [List.any_eq_false]
      intro s hs
      simp [hall s hs]
    have hevery : stages.all (·.state == .completed) = true := by simpa using hall
    simp [hne, hnone, hevery]

/-! ### Rows without a stored plan -/

section Rows

variable {runId : String} {seen : Observations} {rows : StepRows}

@[simp] theorem legacyStep_none (stepIndex : ℤ) : legacyStep none stepIndex = none := rfl

@[simp] theorem DependencyMembership.pruneCompleted_state (m : DependencyMembership) :
    m.pruneCompleted.state = m.state := by
  unfold pruneCompleted
  split <;> rfl

@[simp] theorem DependencyMembership.pruneCompleted_workItemId (m : DependencyMembership) :
    m.pruneCompleted.workItemId = m.workItemId := by
  unfold pruneCompleted
  split <;> rfl

/-- The membership shows an attempt that failed. -/
def ShowsFailed (seen : Observations) (workItemId : String) : Prop :=
  ∃ t, seen.terminalOf workItemId = some t ∧ t.terminalState = .failed

/-- The membership shows an attempt that completed. -/
def ShowsCompleted (seen : Observations) (workItemId : String) : Prop :=
  ∃ t, seen.terminalOf workItemId = some t ∧ t.terminalState = .completed

variable {record : WorkflowDependencyWorkItemRecord} {queued running : Bool}

theorem deriveDependencyMembership_failed :
    (deriveDependencyMembership record queued running (seen.terminalOf record.workItemId) none).state = .failed ↔
      ShowsFailed seen record.workItemId := by
  unfold deriveDependencyMembership ShowsFailed
  cases seen.terminalOf record.workItemId with
  | none => cases running <;> cases queued <;> simp
  | some t =>
    simp only [terminalMembership, Option.some.injEq, exists_eq_left']
    cases t.terminalState <;> simp
    split <;> simp

theorem deriveDependencyMembership_success :
    (deriveDependencyMembership record queued running (seen.terminalOf record.workItemId) none).state.isSuccess = true ↔
      ShowsCompleted seen record.workItemId := by
  unfold deriveDependencyMembership ShowsCompleted
  cases seen.terminalOf record.workItemId with
  | none => cases running <;> cases queued <;> simp [WorkItemMembershipState.isSuccess]
  | some t =>
    simp only [terminalMembership, Option.some.injEq, exists_eq_left']
    cases t.terminalState with
    | failed => simp [WorkItemMembershipState.isSuccess]
    | completed =>
      by_cases hskipped : t.skippedParentId = "" <;> simp [WorkItemMembershipState.isSuccess, hskipped]

theorem terminalMembership_workItemId (record : WorkflowDependencyWorkItemRecord) (t : TerminalAttemptRecord) :
    (terminalMembership record t).workItemId = record.workItemId := by
  unfold terminalMembership
  split <;> rfl

theorem deriveDependencyMembership_workItemId {terminal : Option TerminalAttemptRecord}
    {stored : Option DependencyMembership} :
    (deriveDependencyMembership record queued running terminal stored).workItemId = record.workItemId := by
  unfold deriveDependencyMembership
  cases terminal with
  | none => cases running <;> cases queued <;> cases stored <;> rfl
  | some t =>
    cases stored with
    | none => exact terminalMembership_workItemId record t
    | some old =>
      simp only
      split
      · rfl
      · exact terminalMembership_workItemId record t

/-- A membership of a step as a plan shows it. -/
def StepRows.shown (rows : StepRows) (runId : String) (seen : Observations)
    (r : WorkflowDependencyWorkItemRecord) : DependencyMembership :=
  let membership := deriveDependencyMembership r (seen.isQueued runId r.workItemId)
    (seen.isRunning runId r.workItemId) (seen.terminalOf r.workItemId) none
  if rows.fact.isSome then membership.pruneCompleted else membership

theorem StepRows.workItems_eq : rows.workItems runId none seen = rows.memberships.map (rows.shown runId seen) := rfl

variable {r : WorkflowDependencyWorkItemRecord}

theorem StepRows.shown_workItemId :
    (rows.shown runId seen r).workItemId = r.workItemId := by
  simp only [shown]
  split
  · rw [DependencyMembership.pruneCompleted_workItemId, deriveDependencyMembership_workItemId]
  · exact deriveDependencyMembership_workItemId

theorem StepRows.shown_failed :
    (rows.shown runId seen r).state = .failed ↔ ShowsFailed seen r.workItemId := by
  simp only [shown]
  split
  · rw [DependencyMembership.pruneCompleted_state, deriveDependencyMembership_failed]
  · exact deriveDependencyMembership_failed

theorem StepRows.shown_success :
    (rows.shown runId seen r).state.isSuccess = true ↔ ShowsCompleted seen r.workItemId := by
  simp only [shown]
  split
  · rw [DependencyMembership.pruneCompleted_state, deriveDependencyMembership_success]
  · exact deriveDependencyMembership_success

/-- The output is all that `withOutput` changes. -/
theorem StepRows.withOutput_frame (stored : Option DependencyStep) (step : DependencyStep) :
    (rows.withOutput stored step).state = step.state ∧ (rows.withOutput stored step).workItems = step.workItems ∧
      (rows.withOutput stored step).stageIndex = step.stageIndex ∧
      (rows.withOutput stored step).stepIndex = step.stepIndex ∧ (rows.withOutput stored step).stepId = step.stepId := by
  unfold withOutput
  split <;> exact ⟨rfl, rfl, rfl, rfl, rfl⟩

theorem StepRows.derive_state :
    (rows.derive runId none seen).state =
      deriveDependencyStepState (rows.workItems runId none seen) rows.fact.isSome :=
  (rows.withOutput_frame _ _).1

theorem StepRows.derive_workItems {legacy : Option DependencyPlan} :
    (rows.derive runId legacy seen).workItems = rows.workItems runId legacy seen :=
  (rows.withOutput_frame _ _).2.1

theorem StepRows.derive_index {legacy : Option DependencyPlan} :
    (rows.derive runId legacy seen).stageIndex = rows.record.stageIndex ∧
      (rows.derive runId legacy seen).stepIndex = rows.record.stepIndex ∧
      (rows.derive runId legacy seen).stepId = rows.record.stepId :=
  (rows.withOutput_frame _ _).2.2

/-- A step that shows an output has an output fact. -/
theorem StepRows.derive_output :
    ((rows.derive runId none seen).outputJson ≠ "" → rows.fact.isSome = true) ∧
      ((rows.derive runId none seen).outputJsonSha256 ≠ "" → rows.fact.isSome = true) := by
  simp only [derive, withOutput, legacyStep_none]
  cases rows.fact with
  | none => simp
  | some fact => simp

/-- A step is blocked exactly if it has neither memberships nor an output fact. -/
theorem StepRows.derive_blocked :
    (rows.derive runId none seen).state = .blocked ↔ rows.memberships = [] ∧ rows.fact = none := by
  rw [derive_state, deriveDependencyStepState_blocked, workItems_eq, List.map_eq_nil_iff]
  simp

theorem StepRows.derive_failed :
    (rows.derive runId none seen).state = .failed ↔ ∃ r ∈ rows.memberships, ShowsFailed seen r.workItemId := by
  rw [derive_state, deriveDependencyStepState_failed, workItems_eq]
  simp only [List.mem_map, exists_exists_and_eq_and, shown_failed]

theorem StepRows.derive_completed :
    (rows.derive runId none seen).state = .completed ↔
      (∀ r ∈ rows.memberships, ¬ ShowsFailed seen r.workItemId) ∧
        (rows.fact.isSome = true ∨
          (rows.memberships ≠ [] ∧ ∀ r ∈ rows.memberships, ShowsCompleted seen r.workItemId)) := by
  rw [derive_state, deriveDependencyStepState_completed, workItems_eq]
  simp only [List.forall_mem_map, ne_eq, shown_failed, shown_success, List.map_eq_nil_iff]

end Rows

/-! ### Plans -/

section Plans

variable {run : WorkflowRunRecord} {legacy : Option DependencyPlan} {rows : List StepRows} {seen : Observations}
  {plan : DependencyPlan}

theorem reconstructPlan_ok :
    reconstructPlan run legacy rows seen = .ok plan ↔
      plan = (derivePlan run legacy rows seen).withStoredFailure legacy ∧ validateDependencyPlan plan = .ok () := by
  unfold reconstructPlan
  rw [except_bind_ok]
  constructor
  · rintro ⟨_, hvalid, h⟩
    cases h
    exact ⟨rfl, wrapError_ok.1 hvalid⟩
  · rintro ⟨rfl, hvalid⟩
    exact ⟨(), wrapError_ok.2 hvalid, rfl⟩

@[simp] theorem DependencyPlan.withStoredFailure_none (p : DependencyPlan) : p.withStoredFailure none = p := rfl

@[simp] theorem DependencyPlan.withStoredFailure_stages (p : DependencyPlan) (stored : Option DependencyPlan) :
    (p.withStoredFailure stored).stages = p.stages := by
  unfold withStoredFailure
  split
  · split <;> rfl
  · rfl

/-- A stored plan that has failed makes the plan fail. -/
theorem withStoredFailure_failed {stored p : DependencyPlan} (h : stored.state = .failed) :
    (p.withStoredFailure (some stored)).state = .failed := by
  simp only [DependencyPlan.withStoredFailure]
  split
  · rfl
  · rename_i hnot
    simpa [h] using hnot

variable {k : ℤ}

theorem mem_stageIndexes : k ∈ stageIndexes rows ↔ ∃ r ∈ rows, r.record.stageIndex = k := by
  simp [stageIndexes]

theorem stages_derivePlan :
    (derivePlan run legacy rows seen).stages = (stageIndexes rows).map (deriveStage run.id legacy seen
      (planFailureReason legacy (rows.map (·.derive run.id legacy seen))) rows) := rfl

/-- The stage of a plan with this index. -/
theorem findDependencyStage_derivePlan {stage : DependencyStage}
    (h : findDependencyStage ((derivePlan run legacy rows seen).withStoredFailure legacy) k = some stage) :
    (∃ r ∈ rows, r.record.stageIndex = k) ∧
      ∃ reason, stage = deriveStage run.id legacy seen reason rows k := by
  unfold findDependencyStage at h
  rw [DependencyPlan.withStoredFailure_stages, stages_derivePlan] at h
  obtain ⟨k', hk', rfl⟩ := List.mem_map.1 (List.mem_of_find?_eq_some h)
  obtain rfl : k' = k := by simpa [deriveStage] using List.find?_some h
  exact ⟨mem_stageIndexes.1 hk', _, rfl⟩

theorem findDependencyStage_isSome (h : ∃ r ∈ rows, r.record.stageIndex = k) :
    ∃ stage, findDependencyStage ((derivePlan run legacy rows seen).withStoredFailure legacy) k = some stage := by
  rw [← Option.isSome_iff_exists, findDependencyStage, DependencyPlan.withStoredFailure_stages, stages_derivePlan,
    List.find?_isSome]
  exact ⟨_, List.mem_map_of_mem (mem_stageIndexes.2 h), by simp [deriveStage]⟩

/-- The rows of the steps of a stage. -/
def rowsOfStage (rows : List StepRows) (k : ℤ) : List StepRows := rows.filter (·.record.stageIndex == k)

theorem mem_rowsOfStage {r : StepRows} : r ∈ rowsOfStage rows k ↔ r ∈ rows ∧ r.record.stageIndex = k := by
  simp [rowsOfStage]

variable {reason : String}

theorem deriveStage_steps {runId : String} :
    (deriveStage runId legacy seen reason rows k).steps = (rowsOfStage rows k).map (·.derive runId legacy seen) := rfl

theorem deriveStage_blocked {runId : String} :
    (deriveStage runId none seen reason rows k).state = .blocked ↔
      (stageIndexes rows).head? ≠ some k ∧ ∀ r ∈ rows, r.record.stageIndex = k → r.memberships = [] ∧ r.fact = none := by
  have hstate := @deriveDependencyStageState_blocked ((rowsOfStage rows k).map (·.derive runId none seen))
    ((stageIndexes rows).head? == some k)
  refine hstate.trans ?_
  simp only [beq_eq_false_iff_ne, List.forall_mem_map, mem_rowsOfStage, and_imp, StepRows.derive_blocked]

theorem ne_nil_iff_exists_mem {α : Type} {l : List α} : l ≠ [] ↔ ∃ a, a ∈ l :=
  ⟨List.exists_mem_of_ne_nil l, fun ⟨_, ha⟩ => List.ne_nil_of_mem ha⟩

theorem deriveStage_failed {runId : String} :
    (deriveStage runId none seen reason rows k).state = .failed ↔
      ∃ r ∈ rows, r.record.stageIndex = k ∧ ∃ m ∈ r.memberships, ShowsFailed seen m.workItemId := by
  have hstate := @deriveDependencyStageState_failed ((rowsOfStage rows k).map (·.derive runId none seen))
    ((stageIndexes rows).head? == some k)
  refine hstate.trans ?_
  simp only [List.mem_map, exists_exists_and_eq_and]
  simp only [mem_rowsOfStage, StepRows.derive_failed, and_assoc]

theorem deriveStage_completed {runId : String} :
    (deriveStage runId none seen reason rows k).state = .completed ↔
      (∃ r ∈ rows, r.record.stageIndex = k) ∧
        ∀ r ∈ rows, r.record.stageIndex = k → (r.derive runId none seen).state = .completed := by
  have hstate := @deriveDependencyStageState_completed ((rowsOfStage rows k).map (·.derive runId none seen))
    ((stageIndexes rows).head? == some k)
  refine hstate.trans ?_
  rw [ne_eq, List.map_eq_nil_iff, ← ne_eq, ne_nil_iff_exists_mem]
  simp only [List.forall_mem_map, mem_rowsOfStage, and_imp]

/-- A run fails without a stored plan exactly if a member of it shows a failed attempt. -/
theorem derivePlan_failed :
    (derivePlan run none rows seen).state = .failed ↔ ∃ r ∈ rows, ∃ m ∈ r.memberships, ShowsFailed seen m.workItemId := by
  refine deriveDependencyWorkflowState_failed.trans ?_
  constructor
  · rintro ⟨_, hs, hfailed⟩
    obtain ⟨k, _, rfl⟩ := List.mem_map.1 hs
    obtain ⟨r, hr, _, hm⟩ := deriveStage_failed.1 hfailed
    exact ⟨r, hr, hm⟩
  · rintro ⟨r, hr, hm⟩
    exact ⟨_, List.mem_map_of_mem (mem_stageIndexes.2 ⟨r, hr, rfl⟩), deriveStage_failed.2 ⟨r, hr, rfl, hm⟩⟩

/-- A run is completed without a stored plan exactly if it has steps and all of them are. -/
theorem derivePlan_completed :
    (derivePlan run none rows seen).state = .completed ↔
      rows ≠ [] ∧ ∀ r ∈ rows, (r.derive run.id none seen).state = .completed := by
  refine deriveDependencyWorkflowState_completed.trans ?_
  constructor
  · rintro ⟨hne, hall⟩
    obtain ⟨_, hs⟩ := List.exists_mem_of_ne_nil _ hne
    obtain ⟨k, hk, rfl⟩ := List.mem_map.1 hs
    obtain ⟨r, hr, _⟩ := mem_stageIndexes.1 hk
    refine ⟨List.ne_nil_of_mem hr, fun r hr => ?_⟩
    have hstage := hall _ (List.mem_map_of_mem (mem_stageIndexes.2 ⟨r, hr, rfl⟩))
    exact (deriveStage_completed.1 hstage).2 r hr rfl
  · rintro ⟨hne, hall⟩
    obtain ⟨r, hr⟩ := List.exists_mem_of_ne_nil _ hne
    refine ⟨List.ne_nil_of_mem (List.mem_map_of_mem (mem_stageIndexes.2 ⟨r, hr, rfl⟩)), fun s hs => ?_⟩
    obtain ⟨k, hk, rfl⟩ := List.mem_map.1 hs
    exact deriveStage_completed.2 ⟨mem_stageIndexes.1 hk, fun r hr _ => hall r hr⟩

end Plans

end GoEtl.Controller
