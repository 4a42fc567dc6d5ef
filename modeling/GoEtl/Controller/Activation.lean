import GoEtl.Controller.DependencyStore

/-!
# Activating stages and releasing dependents

`cmd/controller/workflow_stage_activation.go` and `cmd/controller/asset_materialize_dependencies.go`:
what a completed work item sets off. If its stage is completed, the next stage is compiled from the
outputs so far, its work items are inserted and queued in one transaction, and their memberships are
recorded one by one. Until the first membership is there, the next stage is derived as blocked. Work
items that depend on work items of their own stage wait for them, and the completion of the last one
queues them.
-/

namespace GoEtl.Controller

open Persistence Workflow

section

variable (rt : Runtime) (runId : String)

/-! ### Activation -/

/-- The first read of `compileActivationStage`; the history takes note of it. -/
def beginActivation (stageIndex : ℤ) : Ctl (Option WorkflowRunRecord) :=
  .step (fun _ w => { w with activations := w.activations ++ [(runId, stageIndex)] }) fun _ w =>
    .ret (getWorkflowRun w.db runId)

/-- The part of `compileActivationStage` that compiles the stage, with the version of the code. -/
def compileAdmitted (run : WorkflowRunRecord) (workflow : WorkflowDefinition) (outputs : List String)
    (stageIndex : ℤ) : Except String (CompileStageResult × String) := do
  let codeVersion ← rt.codeVersion workflow outputs
  let stages ← normalizeStages workflow
  let result ← compileWorkflowStage rt workflow outputs stages stageIndex
  let admitted ← admitStage rt run result
  pure (admitted, codeVersion)

/-- `compileActivationStage`. -/
def compileActivationStage (plan : DependencyPlan) (stageIndex : ℤ) : Ctl (CompileStageResult × String) := do
  match ← beginActivation runId stageIndex with
  | none => .fail ("workflow run " ++ runId ++ " not found")
  | some run => do
    let workflow ← .ofExcept (rt.admittedWorkflow run)
    match findDependencyStage plan stageIndex with
    | none => .fail ("dependency stage " ++ toString stageIndex ++ " not found")
    | some stage => do
      let outputs ← .ofExcept (workflowStepScope rt plan (firstDependencyStepIndex stage))
      .ofExcept (compileAdmitted rt run workflow outputs stageIndex)

/-- Queue the work items of a stage and record the memberships. -/
def queueStage (records : StageRecords) : Ctl Unit := do
  withContext "queue activated stage work items"
    (call rt fun i => queueWorkItems i.fk ⟨records.items, records.resourceConstraints, records.queued⟩)
  records.memberships.forM fun m =>
    withContext "record activated stage membership" (recordCompiledWorkItemMembership rt runId m)

/-- One round of the loop of `activateNextReadyWorkflowStage`, up to its errors: whether the stage was
completed by having no work items. -/
def activateStage (timestamp : String) (plan : DependencyPlan) (stageIndex : ℤ) : Ctl Bool := do
  let (result, codeVersion) ← compileActivationStage rt runId plan stageIndex
  let records ← .ofExcept (persistenceRecordsFromCompiledStageResults rt runId result codeVersion timestamp)
  let completed ← markCompiledStageEmptyStepsCompleted rt runId result
  if completed then pure true
  else if records.items.isEmpty then pure false
  else do
    queueStage rt runId records
    markWorkflowStageReady rt runId stageIndex
    pure false

/-- `failWorkflowStageActivation`. -/
def failWorkflowStageActivation (stageIndex : ℤ) (cause : String) : Ctl Unit := do
  match ← (markWorkflowStageActivationFailed rt runId stageIndex cause).attempt with
  | .ok () => pure ()
  | .error e => .fail (cause ++ "; additionally failed to mark workflow failed: " ++ e)

/-- The loop of `activateNextReadyWorkflowStage`, for at most this many stages. A plan has no more
stages than that after the first, so the loop ends because there is no next stage to activate. -/
def activateStages (timestamp : String) : ℕ → DependencyPlan → ℤ → Ctl Unit
  | 0, _, _ => pure ()
  | rounds + 1, plan, stageIndex =>
    match findDependencyStage plan stageIndex with
    | none => pure ()
    | some stage =>
      if stage.state ≠ .blocked then pure ()
      else do
        match ← (activateStage rt runId timestamp plan stageIndex).attempt with
        | .error cause => failWorkflowStageActivation rt runId stageIndex cause
        | .ok false => pure ()
        | .ok true =>
          match ← getWorkflowDependencyState rt runId with
          | none => pure ()
          | some nextPlan => activateStages timestamp rounds nextPlan (stageIndex + 1)

/-- `activateNextReadyWorkflowStage`. -/
def activateNextReadyWorkflowStage (completedStageIndex : ℤ) (timestamp : String) : Ctl Unit := do
  match ← getWorkflowDependencyState rt runId with
  | none => pure ()
  | some plan =>
    if plan.state ≠ .running then pure ()
    else match findDependencyStage plan completedStageIndex with
      | none => pure ()
      | some stage =>
        if stage.state ≠ .completed then pure ()
        else activateStages rt runId timestamp plan.stages.length plan (completedStageIndex + 1)

end

/-! ### Dependents -/

/-- `workItemPayloadFromRecord`. -/
def workItemPayloadFromRecord (rt : Runtime) (record : WorkItemRecord) : Except String WorkItem :=
  wrapError ("decode persisted work item " ++ record.id) (rt.decodeWorkItem record.workerPayloadJson)

/-- The work item has an attempt that ended like this. -/
def Observations.ended (seen : Observations) (state : TerminalState) (workItemId : String) : Bool :=
  seen.terminal.any fun t => t.terminalState == state && t.workItem.id == workItemId

/-- The work item is nowhere yet: not queued, not running and not finished. -/
def Observations.isIdle (seen : Observations) (runId workItemId : String) : Bool :=
  !(seen.queued.any (·.id == workItemId)) && !(seen.isRunning runId workItemId) &&
    !(seen.ended .completed workItemId) && !(seen.ended .failed workItemId)

/-- One round of the loop of `enqueueReadyAssetMaterializeDependents`: the membership of a work item that
waited for the completed one and now has all it depends on. -/
def readyDependent (rt : Runtime) (seen : Observations) (steps : List WorkflowDependencyStepRecord)
    (completed record : WorkItemRecord) : Except String (Option StageMembership) :=
  if record.id = completed.id ∨ seen.isIdle completed.runId record.id = false then .ok none
  else do
    let item ← workItemPayloadFromRecord rt record
    if !(item.dependsOn.contains completed.id) || !(item.dependsOn.all (seen.ended .completed ·)) then pure none
    else match steps.reverse.find? fun s => s.stageIndex == record.stageIndex && s.stepId == item.stepDefinitionId with
      | none => .error ("dependency step not found for asset_materialize dependent " ++ record.id ++
          " at stage " ++ toString record.stageIndex ++ " step " ++ item.stepDefinitionId)
      | some step => pure (some ⟨record.stageIndex, step.stepIndex, record.id, record.workItemIndex⟩)

/-- The loop of `enqueueReadyAssetMaterializeDependents`: the work items to queue and their
memberships. -/
def readyDependents (rt : Runtime) (seen : Observations) (steps : List WorkflowDependencyStepRecord)
    (completed : WorkItemRecord) : List WorkItemRecord → Except String (List (WorkItemRecord × StageMembership))
  | [] => .ok []
  | record :: records => do
    let first ← readyDependent rt seen steps completed record
    let rest ← readyDependents rt seen steps completed records
    match first with
    | none => pure rest
    | some m => pure ((record, m) :: rest)

/-- The order in which dependents are queued: by index, then by id. -/
def QueuedBefore (a b : QueuedWorkRecord) : Prop :=
  a.workItemIndex < b.workItemIndex ∨ (a.workItemIndex = b.workItemIndex ∧ a.id ≤ b.id)

instance : DecidableRel QueuedBefore := fun _ _ => inferInstanceAs (Decidable (_ ∨ _))

section

variable (rt : Runtime)

/-- Queue dependents and record their memberships. -/
def queueDependents (runId timestamp : String) (ready : List (WorkItemRecord × StageMembership)) : Ctl Unit := do
  withContext "enqueue asset_materialize dependent work"
    (call rt fun i => enqueueWorkItemsOp i.fk
      ((ready.map fun r => (⟨r.1, timestamp⟩ : QueuedWorkRecord)).insertionSort (QueuedBefore · ·)))
  ready.forM fun r =>
    withContext "record asset_materialize dependent membership" (recordCompiledWorkItemMembership rt runId r.2)

/-- `enqueueReadyAssetMaterializeDependents`. -/
def enqueueReadyAssetMaterializeDependents (completed : WorkItemRecord) (timestamp : String) : Ctl Unit := do
  let allWork ← queryOrFail (listWorkItemsForRun · completed.runId)
  let queued ← query listQueuedWorkItems
  let running ← query listRunningWork
  let terminal ← queryOrFail (listTerminalAttemptsForRun · completed.runId)
  let steps ← query (listWorkflowDependencySteps · completed.runId)
  let ready ← .ofExcept (readyDependents rt ⟨queued, running, terminal⟩ steps completed allWork)
  if ready.isEmpty then pure () else queueDependents rt completed.runId timestamp ready

/-- `failAssetMaterializeDependents`. -/
def failAssetMaterializeDependents (failed : WorkItemRecord) (reason : String) : Ctl Unit := do
  let item ← .ofExcept (workItemPayloadFromRecord rt failed)
  if item.type = .assetMaterialize then
    markWorkflowStageActivationFailed rt failed.runId failed.stageIndex
      (if reason = "" then "asset_materialize failed" else reason)
  else pure ()

end

end GoEtl.Controller
