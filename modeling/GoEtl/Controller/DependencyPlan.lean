import GoEtl.Persistence.Queries
import GoEtl.Text.Space

/-!
# The dependency plan of a run

`internal/model/workflow_dependency.go` and the part of `cmd/controller/workflow_dependency_store.go`
that does not reach the store. A run's plan lists its stages, the steps of each stage and the work
items of each step, every one with a state. The plan is not stored: it is reconstructed from the
run's dependency steps, their memberships and output facts, and from where the work items are
(`reconstructPlan`). What is stored is the plan of a run that was marked failed, inside the run's
submission context; the source calls it the legacy plan, and it overrides some of what is derived.

The texts of a state are those of the source with the same name. A stored plan with any other text
does not pass `validateDependencyPlan`, and is read as if it were not there.
-/

namespace GoEtl.Controller

open Persistence Text

/-! ### Plans -/

/-- `WorkflowState`. -/
inductive WorkflowState where
  | running | completed | failed
  deriving DecidableEq, Repr

/-- `WorkflowStageState`. -/
inductive WorkflowStageState where
  | blocked | ready | active | completed | failed
  deriving DecidableEq, Repr

/-- `WorkflowStepState`. -/
inductive WorkflowStepState where
  | blocked | ready | active | completed | failed
  deriving DecidableEq, Repr

/-- The text of a step's state. -/
def WorkflowStepState.text : WorkflowStepState → String
  | blocked => "blocked"
  | ready => "ready"
  | active => "active"
  | completed => "completed"
  | failed => "failed"

/-- `WorkItemMembershipState`. -/
inductive WorkItemMembershipState where
  | queued | running | completed | failed | skipped
  deriving DecidableEq, Repr

/-- `WorkflowDependencyWorkItemMembership`: a work item of a step. -/
structure DependencyMembership where
  workItemId : String
  workItemIndex : ℤ
  state : WorkItemMembershipState
  failureReason : String := ""
  outputJson : String := ""
  outputJsonSha256 : String := ""
  outputJsonBytes : ℤ := 0
  outputJsonPruned : Bool := false
  deriving DecidableEq, Repr

/-- `WorkflowDependencyStep`. -/
structure DependencyStep where
  (stageIndex stepIndex : ℤ)
  stepId : String
  state : WorkflowStepState
  failureReason : String := ""
  outputJson : String := ""
  outputJsonSha256 : String := ""
  outputJsonBytes : ℤ := 0
  outputJsonPruned : Bool := false
  workItems : List DependencyMembership
  deriving DecidableEq, Repr

/-- `WorkflowDependencyStage`. -/
structure DependencyStage where
  stageIndex : ℤ
  state : WorkflowStageState
  failureReason : String := ""
  parallelWith : String
  steps : List DependencyStep
  deriving DecidableEq, Repr

/-- `WorkflowDependencyPlan`. -/
structure DependencyPlan where
  (runId workflowId : String)
  state : WorkflowState
  failureReason : String := ""
  stages : List DependencyStage
  deriving DecidableEq, Repr

/-! ### Validation -/

def DependencyMembership.validate (m : DependencyMembership) : Except String Unit :=
  rules [
    (m.workItemId == "", "work item id is required"),
    (decide (m.workItemIndex < 0), "work item index must be non-negative"),
    (m.outputJson != "" && !jsonValid m.outputJson, "output json must be valid JSON"),
    (decide (m.outputJsonBytes < 0), "output json bytes must be non-negative")]

def DependencyStep.validate (s : DependencyStep) : Except String Unit := do
  rules [
    (s.stepId == "", "step id is required"),
    (decide (s.stageIndex < 0), "stage index must be non-negative"),
    (decide (s.stepIndex < 0), "step index must be non-negative"),
    (s.outputJson != "" && !jsonValid s.outputJson, "output json must be valid JSON"),
    (decide (s.outputJsonBytes < 0), "output json bytes must be non-negative")]
  s.workItems.forM fun m => wrapError ("work item " ++ m.workItemId) m.validate

def DependencyStage.validate (s : DependencyStage) : Except String Unit := do
  rules [(decide (s.stageIndex < 0), "stage index must be non-negative")]
  s.steps.forM DependencyStep.validate

def DependencyPlan.validate (p : DependencyPlan) : Except String Unit :=
  rules [
    (p.runId == "", "workflow run id is required"),
    (p.workflowId == "", "workflow id is required")]

/-- What the loops of `validateDependencyPlan` have seen. -/
structure Seen where
  stages : List ℤ
  steps : List ℤ
  workItems : List String

/-- The loop over the work items of a step. -/
def validatePlanWorkItems (seen : Seen) : List DependencyMembership → Except String Seen
  | [] => .ok seen
  | m :: ms => do
    rules [(seen.workItems.contains m.workItemId, "duplicate work item id " ++ m.workItemId)]
    wrapError ("work item " ++ m.workItemId) m.validate
    validatePlanWorkItems { seen with workItems := m.workItemId :: seen.workItems } ms

/-- The loop over the steps of a stage. -/
def validatePlanSteps (stageIndex : ℤ) (seen : Seen) : List DependencyStep → Except String Seen
  | [] => .ok seen
  | s :: ss => do
    rules [
      (seen.steps.contains s.stepIndex, "duplicate step index " ++ toString s.stepIndex),
      (s.stageIndex != stageIndex, "step " ++ toString s.stepIndex ++ " has unexpected stage " ++
        toString s.stageIndex ++ " for stage " ++ toString stageIndex)]
    let seen ← validatePlanWorkItems { seen with steps := s.stepIndex :: seen.steps } s.workItems
    validatePlanSteps stageIndex seen ss

/-- The loop over the stages. -/
def validatePlanStages (seen : Seen) : List DependencyStage → Except String Unit
  | [] => .ok ()
  | s :: ss => do
    rules [(seen.stages.contains s.stageIndex, "duplicate stage index " ++ toString s.stageIndex)]
    wrapError ("stage " ++ toString s.stageIndex) s.validate
    let seen ← validatePlanSteps s.stageIndex { seen with stages := s.stageIndex :: seen.stages } s.steps
    validatePlanStages seen ss

/-- `validateDependencyPlan`. -/
def validateDependencyPlan (plan : DependencyPlan) : Except String Unit := do
  plan.validate
  validatePlanStages ⟨[], [], []⟩ plan.stages

/-! ### Deriving the states -/

/-- `isTerminalMembershipState`. -/
def WorkItemMembershipState.isTerminal : WorkItemMembershipState → Bool
  | .completed | .skipped | .failed => true
  | .queued | .running => false

/-- The work item ended well. -/
def WorkItemMembershipState.isSuccess : WorkItemMembershipState → Bool
  | .completed | .skipped => true
  | .queued | .running | .failed => false

/-- Where the work items of a run are: what the three lists of the store say, each read on its own. -/
structure Observations where
  queued : List QueuedWorkRecord
  running : List RunningWorkRecord
  terminal : List TerminalAttemptRecord

/-- `queuedByWorkItemID` has the work item. -/
def Observations.isQueued (seen : Observations) (runId workItemId : String) : Bool :=
  seen.queued.any fun q => q.runId == runId && q.id == workItemId

/-- `runningByWorkItemID` has the work item. -/
def Observations.isRunning (seen : Observations) (runId workItemId : String) : Bool :=
  seen.running.any fun r => r.workItem.runId == runId && r.workItem.id == workItemId

/-- `terminalByWorkItemID`: of several attempts of a work item, the last one listed. -/
def Observations.terminalOf (seen : Observations) (workItemId : String) : Option TerminalAttemptRecord :=
  seen.terminal.reverse.find? (·.workItem.id == workItemId)

/-- The steps of a plan, in order. -/
def DependencyPlan.steps (plan : DependencyPlan) : List DependencyStep := plan.stages.flatMap (·.steps)

/-- `legacySteps`: of several steps with an index, the last one. -/
def legacyStep (legacy : Option DependencyPlan) (stepIndex : ℤ) : Option DependencyStep :=
  legacy.bind fun plan => plan.steps.reverse.find? (·.stepIndex == stepIndex)

/-- `legacyMemberships`: of several memberships of a work item, the last one. -/
def legacyMembership (legacy : Option DependencyPlan) (workItemId : String) : Option DependencyMembership :=
  legacy.bind fun plan => (plan.steps.flatMap (·.workItems)).reverse.find? (·.workItemId == workItemId)

/-- The length of a text in bytes. -/
def byteLength (text : String) : ℤ := text.utf8ByteSize

/-- The membership of a work item whose last attempt ended. -/
def terminalMembership (record : WorkflowDependencyWorkItemRecord) (terminal : TerminalAttemptRecord) :
    DependencyMembership :=
  match terminal.terminalState with
  | .failed =>
    { workItemId := record.workItemId, workItemIndex := record.workItemIndex, state := .failed,
      failureReason := terminal.error }
  | .completed =>
    { workItemId := record.workItemId, workItemIndex := record.workItemIndex,
      state := if terminal.skippedParentId ≠ "" then .skipped else .completed
      outputJson := terminal.outputJson, outputJsonSha256 := terminal.outputJsonSha256,
      outputJsonBytes := byteLength terminal.outputJson }

/-- The stored membership under the record's id and index. -/
def DependencyMembership.renamed (m : DependencyMembership) (record : WorkflowDependencyWorkItemRecord) :
    DependencyMembership :=
  { m with workItemId := record.workItemId, workItemIndex := record.workItemIndex }

/-- `deriveDependencyMembership`: an ended attempt decides, then a running one, then the queue, and then
the stored plan. A stored failure stands against an attempt that did not fail. -/
def deriveDependencyMembership (record : WorkflowDependencyWorkItemRecord) (queued running : Bool)
    (terminal : Option TerminalAttemptRecord) (legacy : Option DependencyMembership) : DependencyMembership :=
  let membership : DependencyMembership :=
    { workItemId := record.workItemId, workItemIndex := record.workItemIndex, state := .queued }
  match terminal with
  | some terminal =>
    match legacy with
    | some stored =>
      if stored.state = .failed ∧ terminal.terminalState ≠ .failed then stored.renamed record
      else terminalMembership record terminal
    | none => terminalMembership record terminal
  | none =>
    if running then { membership with state := .running }
    else if queued then membership
    else match legacy with
      | some stored => stored.renamed record
      | none => membership

/-- `pruneCompletedMembershipOutput`. -/
def DependencyMembership.pruneCompleted (m : DependencyMembership) : DependencyMembership :=
  if m.outputJson ≠ "" ∧ m.state.isSuccess = true then
    { m with outputJsonBytes := byteLength m.outputJson, outputJson := "", outputJsonPruned := true }
  else m

/-- `deriveDependencyStepState`. -/
def deriveDependencyStepState (workItems : List DependencyMembership) (hasOutputFact : Bool) :
    WorkflowStepState :=
  if workItems.any (·.state == .failed) then .failed
  else if hasOutputFact || (!workItems.isEmpty && workItems.all (·.state.isSuccess)) then .completed
  else if workItems.any fun m => m.state == .running || m.state.isSuccess then .active
  else if workItems.any (·.state == .queued) then .ready
  else .blocked

/-- `stepHasNoDerivedTerminalEvidence`. -/
def stepHasNoDerivedTerminalEvidence (workItems : List DependencyMembership) (hasOutputFact : Bool) : Bool :=
  !hasOutputFact && workItems.all (!·.state.isTerminal)

/-- A dependency step as the store has it: the row, its output fact and its memberships. -/
structure StepRows where
  record : WorkflowDependencyStepRecord
  fact : Option WorkflowStepOutputFactRecord
  memberships : List WorkflowDependencyWorkItemRecord

/-- The memberships of a step; with an output fact the outputs of its work items are left out. -/
def StepRows.workItems (rows : StepRows) (runId : String) (legacy : Option DependencyPlan)
    (seen : Observations) : List DependencyMembership :=
  rows.memberships.map fun m =>
    let membership := deriveDependencyMembership m (seen.isQueued runId m.workItemId)
      (seen.isRunning runId m.workItemId) (seen.terminalOf m.workItemId) (legacyMembership legacy m.workItemId)
    if rows.fact.isSome then membership.pruneCompleted else membership

/-- The output a step shows: its fact's, or the stored plan's. -/
def StepRows.withOutput (rows : StepRows) (stored : Option DependencyStep) (step : DependencyStep) :
    DependencyStep :=
  match rows.fact, stored with
  | some fact, _ =>
    { step with
      outputJson := fact.outputJson, outputJsonSha256 := fact.outputJsonSha256,
      outputJsonBytes := fact.outputJsonBytes, outputJsonPruned := fact.outputJsonPruned }
  | none, some old =>
    { step with
      outputJson := old.outputJson, outputJsonSha256 := old.outputJsonSha256,
      outputJsonBytes := old.outputJsonBytes, outputJsonPruned := old.outputJsonPruned }
  | none, none => step

/-- The state of a step: derived, unless the stored plan has a step that overrides it. -/
def StepRows.state (rows : StepRows) (stored : Option DependencyStep) (workItems : List DependencyMembership) :
    WorkflowStepState :=
  match stored with
  | none => deriveDependencyStepState workItems rows.fact.isSome
  | some old =>
    if stepHasNoDerivedTerminalEvidence workItems rows.fact.isSome ∨
        (old.state = .failed ∧ rows.fact.isSome = false) then old.state
    else deriveDependencyStepState workItems rows.fact.isSome

/-- One round of the loop of `getWorkflowDependencyState` over the dependency steps. -/
def StepRows.derive (rows : StepRows) (runId : String) (legacy : Option DependencyPlan)
    (seen : Observations) : DependencyStep :=
  let stored := legacyStep legacy rows.record.stepIndex
  let workItems := rows.workItems runId legacy seen
  rows.withOutput stored
    { stageIndex := rows.record.stageIndex, stepIndex := rows.record.stepIndex, stepId := rows.record.stepId
      state := rows.state stored workItems, workItems := workItems
      failureReason := (stored.map (·.failureReason)).getD "" }

/-- `deriveDependencyStageState`. -/
def deriveDependencyStageState (steps : List DependencyStep) (isEarliestStage : Bool) : WorkflowStageState :=
  if steps.isEmpty then if isEarliestStage then .ready else .blocked
  else if steps.any (·.state == .failed) then .failed
  else if steps.all (·.state == .completed) then .completed
  else if steps.any fun s => s.state == .active || s.state == .completed then .active
  else if steps.any (·.state == .ready) || isEarliestStage then .ready
  else .blocked

/-- `deriveDependencyWorkflowState`. -/
def deriveDependencyWorkflowState (stages : List DependencyStage) : WorkflowState :=
  if stages.any (·.state == .failed) then .failed
  else if !stages.isEmpty && stages.all (·.state == .completed) then .completed
  else .running

/-- The indexes of the stages that have steps, in order. -/
def stageIndexes (rows : List StepRows) : List ℤ :=
  (rows.map (·.record.stageIndex)).dedup.insertionSort (· ≤ ·)

/-- The failure reason of a plan: the stored plan's, or the first one of a failed step. -/
def planFailureReason (legacy : Option DependencyPlan) (steps : List DependencyStep) : String :=
  steps.foldl
    (fun reason step =>
      if step.state = .failed ∧ step.failureReason ≠ "" ∧ reason = "" then step.failureReason else reason)
    ((legacy.map (·.failureReason)).getD "")

/-- A stage of the plan with its steps. -/
def deriveStage (runId : String) (legacy : Option DependencyPlan) (seen : Observations) (reason : String)
    (rows : List StepRows) (stageIndex : ℤ) : DependencyStage :=
  let own := rows.filter (·.record.stageIndex == stageIndex)
  let steps := own.map (·.derive runId legacy seen)
  let state := deriveDependencyStageState steps ((stageIndexes rows).head? == some stageIndex)
  { stageIndex := stageIndex, state := state, steps := steps
    failureReason := if state = .failed then reason else ""
    parallelWith := (own.head?.map (·.record.parallelWith)).getD "" }

/-- The plan as derived, before a stored failure overrides its state. -/
def derivePlan (run : WorkflowRunRecord) (legacy : Option DependencyPlan) (rows : List StepRows)
    (seen : Observations) : DependencyPlan :=
  let reason := planFailureReason legacy (rows.map (·.derive run.id legacy seen))
  let stages := (stageIndexes rows).map (deriveStage run.id legacy seen reason rows)
  { runId := run.id, workflowId := run.workflowId, failureReason := reason, stages := stages
    state := deriveDependencyWorkflowState stages }

/-- A stored plan that has failed makes the derived plan fail. -/
def DependencyPlan.withStoredFailure (plan : DependencyPlan) : Option DependencyPlan → DependencyPlan
  | some stored =>
    if stored.state = .failed ∧ plan.state ≠ .failed then
      { plan with state := .failed, failureReason := stored.failureReason }
    else plan
  | none => plan

/-- The reconstruction in `getWorkflowDependencyState`, from what the store returned. -/
def reconstructPlan (run : WorkflowRunRecord) (legacy : Option DependencyPlan) (rows : List StepRows)
    (seen : Observations) : Except String DependencyPlan := do
  let plan := (derivePlan run legacy rows seen).withStoredFailure legacy
  wrapError ("invalid reconstructed dependency state for submission " ++ run.id)
    (validateDependencyPlan plan)
  pure plan

/-! ### Looking into a plan -/

/-- `findDependencyStage`. -/
def findDependencyStage (plan : DependencyPlan) (stageIndex : ℤ) : Option DependencyStage :=
  plan.stages.find? (·.stageIndex == stageIndex)

/-- `findDependencyStep`. -/
def findDependencyStep (plan : DependencyPlan) (stageIndex stepIndex : ℤ) : Option DependencyStep :=
  (plan.stages.filter (·.stageIndex == stageIndex)).flatMap (·.steps) |>.find? (·.stepIndex == stepIndex)

/-- `findDependencyWorkItem`: the first step with a membership of the work item, and the membership. -/
def findDependencyWorkItem (plan : DependencyPlan) (workItemId : String) :
    Option (DependencyStep × DependencyMembership) :=
  plan.steps.findSome? fun step =>
    (step.workItems.find? (·.workItemId == workItemId)).map fun membership => (step, membership)

/-- `firstDependencyStepIndex`. -/
def firstDependencyStepIndex (stage : DependencyStage) : ℤ :=
  ((stage.steps.map (·.stepIndex)).min?).getD (-1)

/-- `ensureNoDuplicateWorkItemMembership`. -/
def ensureNoDuplicateWorkItemMembership (workItemId : String) (workItemIndex : ℤ) :
    List DependencyMembership → Except String Unit
  | [] => .ok ()
  | existing :: rest =>
    if existing.workItemId = workItemId then .error ("work item " ++ workItemId ++ " already recorded")
    else if existing.workItemIndex = workItemIndex then
      .error ("work item index " ++ toString workItemIndex ++ " already recorded")
    else ensureNoDuplicateWorkItemMembership workItemId workItemIndex rest

/-- `dependencyStepOutputsReady`. -/
def dependencyStepOutputsReady (workItems : List DependencyMembership) : Bool :=
  !workItems.isEmpty && workItems.all fun m => m.state.isSuccess && m.outputJson != ""

/-! ### Changing a plan

A plan that was reconstructed has no two stages or steps with one index and no two memberships of one
work item, so that what the source changes through a pointer is changed here wherever the index or
the id is. -/

/-- Change a stage. -/
def DependencyPlan.mapStage (plan : DependencyPlan) (stageIndex : ℤ) (f : DependencyStage → DependencyStage) :
    DependencyPlan :=
  { plan with stages := plan.stages.map fun s => if s.stageIndex = stageIndex then f s else s }

/-- Change a step. -/
def DependencyStage.mapStep (stage : DependencyStage) (stepIndex : ℤ) (f : DependencyStep → DependencyStep) :
    DependencyStage :=
  { stage with steps := stage.steps.map fun s => if s.stepIndex = stepIndex then f s else s }

/-- Change a membership. -/
def DependencyStep.mapWorkItem (step : DependencyStep) (workItemId : String)
    (f : DependencyMembership → DependencyMembership) : DependencyStep :=
  { step with workItems := step.workItems.map fun m => if m.workItemId = workItemId then f m else m }

/-- The first reason that is not empty. -/
def orReason (old new : String) : String := if old = "" then new else old

/-- `updateStepStateFromWorkItems`. -/
def updateStepStateFromWorkItems (workItems : List DependencyMembership) (current : WorkflowStepState) :
    WorkflowStepState :=
  if workItems.any (·.state == .failed) then .failed
  else if workItems.all (·.state.isSuccess) then .completed
  else if workItems.any (·.state.isSuccess) then .active
  else current

/-- `updateStageStateFromSteps`. -/
def updateStageStateFromSteps (steps : List DependencyStep) (current : WorkflowStageState) :
    WorkflowStageState :=
  if steps.any (·.state == .failed) then .failed
  else if steps.all (·.state == .completed) then .completed
  else if current = .failed then current
  else if steps.any fun s => s.state == .active || s.state == .completed then .active
  else current

/-- `updateWorkflowStateFromStages`. -/
def DependencyPlan.updateState (plan : DependencyPlan) : DependencyPlan :=
  { plan with
    state :=
      if plan.stages.any (·.state == .failed) then .failed
      else if plan.stages.all (·.state == .completed) then .completed
      else .running }

/-- `pruneWorkItemOutputJSON`. -/
def pruneWorkItemOutputJson (step : DependencyStep) : DependencyStep :=
  { step with
    workItems := step.workItems.map fun m =>
      if m.outputJson = "" then m
      else { m with outputJsonBytes := byteLength m.outputJson, outputJson := "", outputJsonPruned := true } }

/-- `pruneStepOutputJSON`. -/
def pruneStepOutputJson (step : DependencyStep) : DependencyStep :=
  if step.outputJson = "" then step
  else { step with outputJsonBytes := byteLength step.outputJson, outputJson := "", outputJsonPruned := true }

/-- `pruneDependencyOutputsIfTerminal`. -/
def pruneDependencyOutputsIfTerminal (plan : DependencyPlan) : DependencyPlan :=
  match plan.state with
  | .running => plan
  | .completed | .failed =>
    { plan with
      stages := plan.stages.map fun stage =>
        { stage with steps := stage.steps.map fun step => pruneStepOutputJson (pruneWorkItemOutputJson step) } }

/-- `markDependencyWorkItemFailed`; without a work item, every one that has not ended well. -/
def markDependencyWorkItemFailed (workItemId reason : String) (step : DependencyStep) : DependencyStep :=
  { step with
    workItems := step.workItems.map fun m =>
      if (workItemId ≠ "" ∧ m.workItemId ≠ workItemId) ∨ (m.state.isSuccess = true ∧ workItemId = "") then m
      else { m with state := .failed, failureReason := orReason m.failureReason reason } }

/-- A step with its failure. -/
def DependencyStep.fail (step : DependencyStep) (workItemId reason : String) : DependencyStep :=
  markDependencyWorkItemFailed workItemId reason
    { step with state := .failed, failureReason := orReason step.failureReason reason }

/-- `markDependencyPlanFailed`: a step of the stage, or without a step all of them. -/
def markDependencyPlanFailed (plan : DependencyPlan) (stageIndex : ℤ) (stepIndex : Option ℤ)
    (workItemId reason : String) : DependencyPlan :=
  let reason := if isBlank reason then "dependency workflow failed" else reason
  let failed := { plan with state := .failed, failureReason := orReason plan.failureReason reason }
  failed.mapStage stageIndex fun stage =>
    let stage := { stage with state := .failed, failureReason := orReason stage.failureReason reason }
    match stepIndex.filter fun index => stage.steps.any (·.stepIndex == index) with
    | some index => stage.mapStep index (·.fail workItemId reason)
    | none => { stage with steps := stage.steps.map (·.fail "" reason) }

/-- The stage of a changed step takes its state from its steps, and a running workflow from its stages. -/
def DependencyPlan.withStep (plan : DependencyPlan) (step : DependencyStep) : DependencyPlan :=
  let changed := plan.mapStage step.stageIndex fun stage =>
    let stage := stage.mapStep step.stepIndex fun _ => step
    { stage with state := updateStageStateFromSteps stage.steps stage.state }
  if plan.state = .running then changed.updateState else changed

/-- `updateDependencyPlanForWorkItemTerminal`: nothing when the plan does not change. -/
def updateDependencyPlanForWorkItemTerminal (plan : DependencyPlan) (workItemId : String)
    (terminalState : WorkItemMembershipState) (failureReason : String) : Option DependencyPlan :=
  match findDependencyWorkItem plan workItemId with
  | none => none
  | some (step, membership) =>
    if membership.state = terminalState then none
    else if membership.state.isTerminal ∧ (terminalState ≠ .failed ∨ step.outputJsonSha256 ≠ "") then none
    else if terminalState = .failed then
      some (pruneDependencyOutputsIfTerminal
        (markDependencyPlanFailed plan step.stageIndex (some step.stepIndex) workItemId failureReason))
    else
      let changed := step.mapWorkItem workItemId ({ · with state := terminalState })
      some (pruneDependencyOutputsIfTerminal (plan.withStep
        { changed with state := updateStepStateFromWorkItems changed.workItems changed.state }))

end GoEtl.Controller
