import GoEtl.Library.Program
import GoEtl.Controller.StageRecords

/-!
# The dependency state in the store

The rest of `cmd/controller/workflow_dependency_store.go`: the controller's functions that reach the
store. Each call of the store is one transaction on a connection of its own, and nothing is locked
between two calls, so that such a function is a program (`Library.Prog`) with one step per call.

A step takes the connection and the clock from outside (`Input`). The shared state (`World`) is the
database, together with a history that no program reads: the stages whose activation was begun.
-/

namespace GoEtl.Controller

open Library Persistence Text

/-- The state that the handlers share. -/
structure World where
  /-- The database. -/
  db : Store
  /-- The runs and stages that handlers began to activate, in order; only kept to speak about. -/
  activations : List (String × ℤ)

/-- What a call of the store takes from outside. -/
structure Input where
  /-- Whether the connection enforces foreign keys. -/
  fk : Bool
  /-- `time.Now().UTC()`. -/
  now : Instant

/-- A program of the controller; its errors are texts. -/
abbrev Ctl (α : Type) := Prog World Input String α

/-- One transaction. -/
def transaction {α : Type} (m : Input → StoreTx α) : Prog World Input StoreError α :=
  .step (fun i w => { w with db := (m i).commit w.db }) fun i w =>
    match m i w.db with
    | .ok (a, _) => .ret a
    | .error e => .fail e

/-- One query. -/
def query {ε α : Type} (g : Store → α) : Prog World Input ε α := .read fun _ w => g w.db

/-- One query that may be refused. -/
def queryOrFail {ε α : Type} (g : Store → Except ε α) : Prog World Input ε α := do
  .ofExcept (← query g)

/-- Add the context of an error. -/
def withContext {α : Type} (context : String) (p : Ctl α) : Ctl α := p.mapError (context ++ ": " ++ ·)

section

variable (rt : Runtime)

/-- One transaction, with its error as a text. -/
def call {α : Type} (m : Input → StoreTx α) : Ctl α := (transaction m).mapError rt.errorText

/-! ### Reading the state -/

/-- `legacyWorkflowDependencyPlan`. -/
def legacyWorkflowDependencyPlan (submissionContextJson : String) : Option DependencyPlan :=
  match rt.decodeDependencyState submissionContextJson with
  | .ok (some plan) =>
    match validateDependencyPlan plan with
    | .ok () => some plan
    | .error _ => none
  | _ => none

/-- The reads of `getWorkflowDependencyState` for the dependency steps. -/
def readStepRows (runId : String) : List WorkflowDependencyStepRecord → Ctl (List StepRows)
  | [] => pure []
  | record :: records => do
    let fact ← query (getWorkflowStepOutputFact · runId record.stepIndex)
    let memberships ← queryOrFail (listWorkflowDependencyWorkItems · runId record.stageIndex record.stepIndex)
    let rest ← readStepRows runId records
    pure (⟨record, fact, memberships⟩ :: rest)

/-- `getWorkflowDependencyState` of a run that exists and has dependency steps. -/
def readDependencyState (run : WorkflowRunRecord) (records : List WorkflowDependencyStepRecord) :
    Ctl DependencyPlan := do
  let queued ← query listQueuedWorkItems
  let running ← query listRunningWork
  let terminal ← queryOrFail (listTerminalAttemptsForRun · run.id)
  let rows ← readStepRows run.id records
  .ofExcept (reconstructPlan run (legacyWorkflowDependencyPlan rt run.submissionContextJson) rows
    ⟨queued, running, terminal⟩)

/-- `getWorkflowDependencyState`: the plan of a run, if it has one. -/
def getWorkflowDependencyState (runId : String) : Ctl (Option DependencyPlan) := do
  match ← query (getWorkflowRun · runId) with
  | none => pure none
  | some run => do
    let records ← query (listWorkflowDependencySteps · runId)
    if records.isEmpty then pure none
    else do
      let plan ← readDependencyState rt run records
      pure (some plan)

/-! ### Writing it -/

/-- The part of `setWorkflowDependencyState` that stores a failed plan in the submission context. -/
def storeFailedPlan (runId : String) (plan : DependencyPlan) : Ctl Unit := do
  match ← query (getWorkflowRun · runId) with
  | none => .fail ("workflow run " ++ runId ++ " not found")
  | some run => do
    let _ ← .ofExcept (wrapError "decode workflow submission context"
      (rt.decodeDependencyState run.submissionContextJson))
    let text ← .ofExcept (wrapError "encode workflow dependency state"
      (rt.encodeDependencyState run.submissionContextJson plan))
    withContext "persist workflow dependency state"
      (call rt fun _ => updateWorkflowRunSubmissionContext runId text)

/-- `setWorkflowDependencyState`: only a failed plan is stored. -/
def setWorkflowDependencyState (runId : String) (plan : DependencyPlan) : Ctl Unit := do
  .ofExcept (validateDependencyPlan plan)
  match plan.state with
  | .failed => storeFailedPlan rt runId plan
  | .running | .completed => pure ()

/-- `upsertWorkflowStepOutputFact`. -/
def upsertStepOutputFact (runId : String) (step : DependencyStep) (kind : OutputKind) : Ctl Unit :=
  if step.outputJsonSha256 = "" then
    .fail ("workflow step " ++ toString step.stepIndex ++ " output hash is required")
  else
    call rt fun i => upsertWorkflowStepOutputFact i.fk
      ⟨runId, step.stepIndex, step.outputJson, step.outputJsonSha256, step.outputJsonBytes,
        step.outputJsonPruned, kind, i.now.format, i.now.format⟩

/-- One round of `upsertTerminalPrunedWorkflowStepOutputFacts`. -/
def upsertPrunedFact (runId : String) (step : DependencyStep) : Ctl Unit :=
  if step.outputJsonPruned = false ∨ step.outputJsonSha256 = "" then pure ()
  else do
    let existing ← query (getWorkflowStepOutputFact · runId step.stepIndex)
    upsertStepOutputFact rt runId step ((existing.map (·.outputKind)).getD .aggregate)

/-- `upsertTerminalPrunedWorkflowStepOutputFacts`. -/
def upsertTerminalPrunedWorkflowStepOutputFacts (plan : DependencyPlan) : Ctl Unit :=
  match plan.state with
  | .running => pure ()
  | .completed | .failed => plan.steps.forM (upsertPrunedFact rt plan.runId)

/-- `markWorkflowStageActivationFailed`. -/
def markWorkflowStageActivationFailed (runId : String) (stageIndex : ℤ) (reason : String) : Ctl Unit := do
  match ← getWorkflowDependencyState rt runId with
  | none => pure ()
  | some plan => do
    let failed := pruneDependencyOutputsIfTerminal (markDependencyPlanFailed plan stageIndex none "" reason)
    upsertTerminalPrunedWorkflowStepOutputFacts rt failed
    setWorkflowDependencyState rt runId failed

/-- `recordWorkItemTerminalState`. -/
def recordWorkItemTerminalState (runId workItemId : String) (terminalState : WorkItemMembershipState)
    (failureReason : String) : Ctl Unit := do
  .ofExcept (rules [
    (runId == "", "submission id is required"),
    (workItemId == "", "work item id is required"),
    (!terminalState.isTerminal, "work item membership terminal state must be completed, skipped, or failed")])
  match ← getWorkflowDependencyState rt runId with
  | none => pure ()
  | some plan =>
    match updateDependencyPlanForWorkItemTerminal plan workItemId terminalState failureReason with
    | none => pure ()
    | some updated => do
      upsertTerminalPrunedWorkflowStepOutputFacts rt updated
      setWorkflowDependencyState rt runId updated

/-! ### Memberships -/

/-- `sortWorkItemsByIndex`. -/
def sortWorkItemsByIndex (workItems : List DependencyMembership) : List DependencyMembership :=
  workItems.insertionSort fun a b =>
    a.workItemIndex < b.workItemIndex ∨ (a.workItemIndex = b.workItemIndex ∧ a.workItemId ≤ b.workItemId)

/-- A membership of a work item in the queue. -/
def StageMembership.queued (m : StageMembership) : DependencyMembership :=
  { workItemId := m.workItemId, workItemIndex := m.workItemIndex, state := .queued }

/-- The plan with one more membership. -/
def DependencyPlan.withMembership (plan : DependencyPlan) (m : StageMembership) : DependencyPlan :=
  plan.mapStage m.stageIndex (·.mapStep m.stepIndex fun step =>
    { step with workItems := sortWorkItemsByIndex (step.workItems ++ [m.queued]) })

/-- `RecordCompiledWorkItemMembership`. -/
def recordCompiledWorkItemMembership (runId : String) (m : StageMembership) : Ctl Unit := do
  .ofExcept (rules [
    (m.workItemId == "", "work item id is required"),
    (decide (m.workItemIndex < 0), "work item index must be non-negative"),
    (decide (m.stageIndex < 0), "stage index must be non-negative"),
    (decide (m.stepIndex < 0), "step index must be non-negative")])
  match ← getWorkflowDependencyState rt runId with
  | none => .fail ("dependency plan not found for submission " ++ runId)
  | some plan =>
    match findDependencyStep plan m.stageIndex m.stepIndex with
    | none =>
      .fail ("step not found for submission " ++ runId ++ " at stage " ++ toString m.stageIndex ++
        " step " ++ toString m.stepIndex)
    | some step => do
      .ofExcept (ensureNoDuplicateWorkItemMembership m.workItemId m.workItemIndex step.workItems)
      call rt fun i => insertWorkflowDependencyWorkItemMembership i.fk
        [⟨runId, m.stageIndex, m.stepIndex, m.workItemId, m.workItemIndex, i.now.format⟩]
      setWorkflowDependencyState rt runId (plan.withMembership m)

/-! ### Outputs -/

/-- The step after the output of one of its work items was recorded: when all are there, with its own. -/
def stepWithOutput (step : DependencyStep) (workItemId outputJson outputJsonSha256 : String) :
    Except String DependencyStep :=
  let changed := step.mapWorkItem workItemId fun m =>
    { m with
      state := .completed, outputJson := outputJson, outputJsonSha256 := outputJsonSha256,
      outputJsonBytes := byteLength outputJson, outputJsonPruned := false }
  let changed := { changed with state := updateStepStateFromWorkItems changed.workItems changed.state }
  if dependencyStepOutputsReady changed.workItems then do
    let (output, hash) ← rt.aggregateStepOutput changed
    validateLogicalStepOutputJsonSize output
    pure (pruneWorkItemOutputJson
      { changed with
        outputJson := output, outputJsonSha256 := hash, outputJsonBytes := byteLength output,
        outputJsonPruned := false, state := .completed })
  else pure changed

/-- Store the output of a step when all its work items have theirs. -/
def upsertAggregate (runId : String) (ready : Bool) (step : DependencyStep) : Ctl Unit :=
  if ready then upsertStepOutputFact rt runId step .aggregate else pure ()

/-- The writes of `RecordCompletedWorkItemOutput`. -/
def storeOutput (runId : String) (plan : DependencyPlan) (step : DependencyStep)
    (workItemId outputJson outputJsonSha256 : String) : Ctl Unit := do
  let changed ← .ofExcept (stepWithOutput rt step workItemId outputJson outputJsonSha256)
  let updated := pruneDependencyOutputsIfTerminal (plan.withStep changed)
  let ready := dependencyStepOutputsReady
    (step.mapWorkItem workItemId ({ · with state := .completed, outputJson := outputJson })).workItems
  upsertAggregate rt runId ready ((findDependencyStep updated step.stageIndex step.stepIndex).getD changed)
  setWorkflowDependencyState rt runId updated

/-- The checks of `RecordCompletedWorkItemOutput` on an output: its canonical text and hash. -/
def canonicalCompletedOutput (outputJson outputJsonSha256 : String) : Except String (String × String) := do
  rules [(isBlank outputJson, "output json is required")]
  validateCompletedWorkOutputJsonSize outputJson
  let (canonical, hash) ← rt.canonicalOutput outputJson
  validateCompletedWorkOutputJsonSize canonical
  if outputJsonSha256 = "" then pure (canonical, hash)
  else do
    wrapError "output_json_sha256" (rt.validateSha256Hex outputJsonSha256)
    rules [(outputJsonSha256 != hash, "output_json_sha256 does not match canonical output JSON")]
    pure (canonical, hash)

/-- `RecordCompletedWorkItemOutput`. -/
def recordCompletedWorkItemOutput (runId workItemId outputJson outputJsonSha256 : String) : Ctl Unit := do
  .ofExcept (rules [
    (runId == "", "submission id is required"),
    (workItemId == "", "work item id is required")])
  let (canonical, hash) ← .ofExcept (canonicalCompletedOutput rt outputJson outputJsonSha256)
  match ← getWorkflowDependencyState rt runId with
  | none => pure ()
  | some plan =>
    match findDependencyWorkItem plan workItemId with
    | none =>
      .fail ("work item " ++ workItemId ++ " not found in dependency plan for submission " ++ runId)
    | some (step, membership) =>
      if membership.state = .failed then pure ()
      else if plan.state ≠ .running ∧ membership.state.isTerminal = true ∧ step.outputJsonSha256 ≠ "" then pure ()
      else storeOutput rt runId plan step workItemId canonical hash

/-! ### Steps without work items -/

/-- The canonical text of the empty list. -/
def emptyList : String := "[]"

/-- The SHA-256 hash of the empty list's text. -/
def emptyListSha256 : String := "4f53cda18c2baa0c0354bb5f9a3ecbe5ed12ab4d8e11ba873c2f11161202b945"

/-- A step that was compiled to no work items and is not over. -/
def isEmptyFanout (result : CompileStageResult) (step : DependencyStep) : Bool :=
  !(result.workItems.any (·.stepIndex == step.stepIndex)) && step.workItems.isEmpty &&
    step.state != .completed && step.state != .failed

/-- A step that is completed with the empty list. -/
def DependencyStep.completedEmpty (step : DependencyStep) : DependencyStep :=
  { step with
    state := .completed, outputJson := emptyList, outputJsonSha256 := emptyListSha256,
    outputJsonBytes := byteLength emptyList, outputJsonPruned := false }

/-- The stage with its empty steps completed. -/
def DependencyStage.withEmptySteps (stage : DependencyStage) (result : CompileStageResult) : DependencyStage :=
  let steps := stage.steps.map fun step => if isEmptyFanout result step then step.completedEmpty else step
  { stage with steps := steps, state := if steps.all (·.state == .completed) then .completed else stage.state }

/-- `markCompiledStageEmptyStepsCompleted`: whether the stage is completed by it. -/
def markCompiledStageEmptyStepsCompleted (runId : String) (result : CompileStageResult) : Ctl Bool := do
  match ← getWorkflowDependencyState rt runId with
  | none => pure false
  | some plan =>
    match findDependencyStage plan result.stageIndex with
    | none => pure false
    | some stage =>
      let empties := stage.steps.filter (isEmptyFanout result)
      if empties.isEmpty then pure false
      else do
        let changed := stage.withEmptySteps result
        let allCompleted := changed.steps.all (·.state == .completed)
        let updated := plan.mapStage result.stageIndex fun _ => changed
        let updated := if allCompleted then updated.updateState else updated
        empties.forM fun step => upsertStepOutputFact rt runId step.completedEmpty .emptyFanout
        setWorkflowDependencyState rt runId updated
        pure allCompleted

/-- `MarkWorkflowStageReady`. A ready stage is not stored: the next reader derives the state again. -/
def markWorkflowStageReady (runId : String) (stageIndex : ℤ) : Ctl Unit := do
  match ← getWorkflowDependencyState rt runId with
  | none => pure ()
  | some plan =>
    if plan.state ≠ .running then pure ()
    else match findDependencyStage plan stageIndex with
      | none => .fail ("stage " ++ toString stageIndex ++ " not found for submission " ++ runId)
      | some stage =>
        if stage.state ≠ .blocked then pure ()
        else setWorkflowDependencyState rt runId (plan.mapStage stageIndex fun stage =>
          { stage with
            state := .ready
            steps := stage.steps.map fun step => if step.state = .blocked then { step with state := .ready } else step })

end

end GoEtl.Controller
