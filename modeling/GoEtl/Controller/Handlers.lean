import Mathlib.Data.List.Infix
import GoEtl.Persistence.Outcome
import GoEtl.Controller.Activation

/-!
# The handlers

`cmd/controller/main.go`: the submission of a workflow, from its admitted sources on, and the handlers of
completion and failure reports. Each is a program of store calls. What it answers is the HTTP status
with its text; a handler that answers with an error has kept whatever it wrote before.
-/

namespace GoEtl.Controller

open Persistence Text Workflow

/-- What a handler answers. -/
inductive Answer where
  /-- 202, with the number of work items. -/
  | accepted (workItems : ℕ)
  /-- 204. -/
  | noContent
  /-- 400. -/
  | badRequest (text : String)
  /-- 404. -/
  | notFound (text : String)
  /-- 409. -/
  | conflict (text : String)
  /-- 500. -/
  | serverError (text : String)
  deriving DecidableEq, Repr

/-- `strings.Contains`. -/
def containsText (text part : String) : Bool := decide (part.toList <:+: text.toList)

/-- The answer to a report that the store refused. -/
def refusedReport (kind : String) : StoreError → Answer
  | .assignmentNoLongerOwned => .conflict "assignment_no_longer_owned"
  | .message text =>
    if containsText text "conflicts with existing" then .conflict (kind ++ " attempt conflict")
    else .serverError (kind ++ " persisted attempt")
  | _ => .serverError (kind ++ " persisted attempt")

/-- `http.Error` with the text of an error. -/
def orServerError (p : Ctl Answer) : Ctl Answer := do
  match ← p.attempt with
  | .ok answer => pure answer
  | .error e => pure (.serverError e)

section

variable (rt : Runtime)

/-! ### Reports -/

/-- What a handler takes from the clock and the configuration when a report comes in. -/
structure Received where
  /-- `time.Now().UTC()`. -/
  now : Instant
  /-- `workerLiveSessionCutoff`. -/
  liveSessionCutoff : String

/-- `WorkCompletion`: the fields that the handler looks at. -/
structure WorkCompletion where
  (attemptId workerId workerSessionId : String)
  skipped : Bool
  skippedParentId : String
  (outputJson preStateJson postStateJson preStateSha256 postStateSha256 completedAt : String)
  deriving DecidableEq, Repr

/-- `WorkFailure`: the fields that the handler looks at. -/
structure WorkFailure where
  (attemptId workerId workerSessionId error failedAt : String)
  deriving DecidableEq, Repr

/-- `canonicalJSONTextAndHash`. -/
def canonicalJsonTextAndHash (name value : String) : Except String (String × String) := do
  rules [(isBlank value, name ++ " is required")]
  rt.canonicalJson name value

/-- `reportedOrEvidenceSHA256`. -/
def reportedOrEvidenceSha256 (name reported evidence : String) : Except String String :=
  if reported = "" then .ok evidence
  else do
    wrapError name (rt.validateSha256Hex reported)
    pure reported

/-- The text of a time to the second. -/
def secondText (t : Instant) : String := String.ofList (t.toSecond ++ ['Z'])

/-- `reportTimestamp`. -/
def reportTimestamp (name value : String) (fallback : Instant) : Except String String :=
  if value = "" then .ok (secondText fallback)
  else match rt.toSecond value with
    | some text => .ok text
    | none => .error ("parse " ++ name)

/-- `completeAttemptRequestFromCompletion`, with the cutoff that the handler adds. -/
def completeAttemptRequestFromCompletion (received : Received) (completion : WorkCompletion) :
    Except String CompleteAttemptRequest := do
  rules [
    (completion.attemptId == "", "attempt_id is required"),
    (completion.skipped && completion.skippedParentId == "", "skipped_parent_id is required when skipped is true")]
  let (outputJson, outputJsonSha256) ← canonicalJsonTextAndHash rt "output_json" completion.outputJson
  rt.validateArtifactManifest outputJson
  let (_, preStateEvidence) ← canonicalJsonTextAndHash rt "pre_state_json" completion.preStateJson
  let (_, postStateEvidence) ← canonicalJsonTextAndHash rt "post_state_json" completion.postStateJson
  let preStateSha256 ← reportedOrEvidenceSha256 rt "pre_state_sha256" completion.preStateSha256 preStateEvidence
  let postStateSha256 ← reportedOrEvidenceSha256 rt "post_state_sha256" completion.postStateSha256 postStateEvidence
  let completedAt ← reportTimestamp rt "completed_at" completion.completedAt received.now
  pure ⟨completion.attemptId, completion.workerId, completion.workerSessionId, received.liveSessionCutoff,
    completion.skippedParentId, outputJson, outputJsonSha256, preStateSha256, postStateSha256, completedAt⟩

/-- The request that `failPersistedWorkHandler` makes of a report. -/
def failAttemptRequestFromFailure (received : Received) (failure : WorkFailure) : Except String FailAttemptRequest := do
  rules [(failure.attemptId == "", "attempt_id is required")]
  let failedAt ← reportTimestamp rt "failed_at" failure.failedAt received.now
  pure ⟨failure.attemptId, failure.workerId, failure.workerSessionId, received.liveSessionCutoff, failure.error,
    failedAt⟩

/-! ### Completion -/

/-- `CompleteAttempt`, and the time of the call. -/
def completeAttemptAt (request : CompleteAttemptRequest) (i : Input) :
    StoreTx (Option (CompletedWorkRecord × Instant)) := do
  let completed ← completeAttempt i.fk request
  pure (completed.map fun record => (record, i.now))

/-- `activationTimeFromCompletedWork`, as the text of the time to the second. -/
def activationTime (completed : CompletedWorkRecord) (now : Instant) : String :=
  (rt.toSecond completed.completedAt).getD (secondText now)

/-- `recordWorkItemDependencyTerminal` and `recordWorkItemDependencyFailure`. -/
def recordWorkItemDependency (workItemId : String) (state : WorkItemMembershipState) (reason : String) :
    Ctl Unit := do
  match ← query (getWorkItem · workItemId) with
  | none => .fail ("work item " ++ workItemId ++ " not found")
  | some workItem => recordWorkItemTerminalState rt workItem.runId workItem.id state reason

/-- Record the output of a completion that has one. -/
def recordOutput (completion : WorkCompletion) (completed : CompletedWorkRecord) (workItem : WorkItemRecord) :
    Ctl Unit :=
  if completion.outputJson = "" then pure ()
  else recordCompletedWorkItemOutput rt workItem.runId workItem.id completed.outputJson completed.outputJsonSha256

/-- The answer when the output was not accepted: the run is marked failed. -/
def rejectOutput (workItem : WorkItemRecord) (cause : String) : Ctl Answer := do
  match ← (recordWorkItemTerminalState rt workItem.runId workItem.id .failed cause).attempt with
  | .error e =>
    pure (.serverError (cause ++ "; additionally failed to mark dependency output capture failure: " ++ e))
  | .ok () => pure (.serverError cause)

/-- The rest of the handler once the output is recorded. -/
def advanceRun (completion : WorkCompletion) (workItem : WorkItemRecord) (timestamp : String) : Ctl Answer := do
  recordWorkItemDependency rt workItem.id (if completion.skipped then .skipped else .completed) ""
  enqueueReadyAssetMaterializeDependents rt workItem timestamp
  activateNextReadyWorkflowStage rt workItem.runId workItem.stageIndex timestamp
  pure .noContent

/-- The completion of a materialization: only what waits for it is released. -/
def releaseDependents (workItem : WorkItemRecord) (timestamp : String) : Ctl Answer := do
  enqueueReadyAssetMaterializeDependents rt workItem timestamp
  pure .noContent

/-- The handler once the attempt is completed. -/
def afterCompletion (completion : WorkCompletion) (completed : CompletedWorkRecord) (now : Instant) :
    Ctl Answer := do
  match ← query (getWorkItem · completed.workItemId) with
  | none => pure (.serverError "completed work item not found")
  | some workItem =>
    match rt.decodeWorkItem workItem.workerPayloadJson with
    | .error _ => pure (.serverError "decode completed worker payload")
    | .ok payload =>
      let timestamp := activationTime rt completed now
      if payload.type = .assetMaterialize then releaseDependents rt workItem timestamp
      else do
        match ← (recordOutput rt completion completed workItem).attempt with
        | .error cause => rejectOutput rt workItem cause
        | .ok () => advanceRun rt completion workItem timestamp

/-- `completePersistedWorkHandler` on a request that passed the first checks. -/
def completeRequest (completion : WorkCompletion) (request : CompleteAttemptRequest) : Ctl Answer := do
  match ← (transaction (completeAttemptAt request)).attempt with
  | .error e => pure (refusedReport "complete" e)
  | .ok none => pure (.notFound "active attempt not found")
  | .ok (some (completed, now)) => orServerError (afterCompletion rt completion completed now)

/-- `completePersistedWorkHandler`. -/
def completePersistedWorkHandler (received : Received) (completion : WorkCompletion) : Ctl Answer :=
  match validateCompletedWorkOutputJsonSize completion.outputJson with
  | .error e => pure (.badRequest e)
  | .ok () =>
    match completeAttemptRequestFromCompletion rt received completion with
    | .error e => pure (.badRequest e)
    | .ok request =>
      match validateCompletedWorkOutputJsonSize request.outputJson with
      | .error e => pure (.badRequest e)
      | .ok () => completeRequest rt completion request

/-! ### Failure -/

/-- The handler once the attempt is failed. -/
def afterFailure (failed : FailedWorkRecord) (error : String) : Ctl Answer := do
  match ← query (getWorkItem · failed.workItemId) with
  | none => pure (.serverError "failed work item not found")
  | some workItem => do
    failAssetMaterializeDependents rt workItem error
    recordWorkItemDependency rt failed.workItemId .failed error
    pure .noContent

/-- `failPersistedWorkHandler`. -/
def failPersistedWorkHandler (received : Received) (failure : WorkFailure) : Ctl Answer :=
  match failAttemptRequestFromFailure rt received failure with
  | .error e => pure (.badRequest e)
  | .ok request => do
    match ← (transaction fun i => failAttempt i.fk request).attempt with
    | .error e => pure (refusedReport "fail" e)
    | .ok none => pure (.notFound "active attempt not found")
    | .ok (some failed) => orServerError (afterFailure rt failed request.error)

/-! ### Submission -/

/-- A workflow submission, once its sources are admitted: the rows made of them. -/
structure Submission where
  project : ProjectRecord
  workflow : WorkflowRecord
  run : WorkflowRunRecord
  (sourcePath submittedAt : String)

/-- `stageRecordsFromWorkflow`: a row for each step. -/
def stageRecordsFromWorkflow (submission : Submission) (workflow : WorkflowDefinition) :
    List WorkflowStageRecord :=
  workflow.steps.mapIdx fun index step =>
    ⟨submission.run.id, index, step.id, submission.sourcePath ++ "#" ++ step.id, .ready, submission.submittedAt,
      submission.submittedAt, "", "", "", "", ""⟩

/-- The rows of `CreateWorkflowDependencyPlan`. -/
def dependencyStepRecords (runId createdAt : String) (stages : List Stage) : List WorkflowDependencyStepRecord :=
  stages.flatMap fun stage => stage.steps.map fun step =>
    ⟨runId, step.stageIndex, step.stepIndex, step.stepId, stage.parallelWith, createdAt⟩

/-- The loop of `CreateWorkflowDependencyPlan` over the steps of a stage. -/
def checkPlanSteps (stage : Stage) (seen : List ℤ) : List StageStep → Except String (List ℤ)
  | [] => .ok seen
  | step :: steps => do
    rules [
      (step.stageIndex != stage.index, "step " ++ step.stepId ++ " has mismatched stage index " ++
        toString step.stageIndex),
      (decide (step.stepIndex < 0), "step index must be non-negative"),
      (step.stepId == "", "step id is required"),
      (seen.contains step.stepIndex, "duplicate step index " ++ toString step.stepIndex)]
    checkPlanSteps stage (step.stepIndex :: seen) steps

/-- The loop of `CreateWorkflowDependencyPlan` over the stages. -/
def checkPlanStages (seenStages seenSteps : List ℤ) : List Stage → Except String Unit
  | [] => .ok ()
  | stage :: stages => do
    rules [
      (decide (stage.index < 0), "stage index must be non-negative"),
      (seenStages.contains stage.index, "duplicate stage index " ++ toString stage.index)]
    let seenSteps ← checkPlanSteps stage seenSteps stage.steps
    checkPlanStages (stage.index :: seenStages) seenSteps stages

/-- The plan of a run whose first stage is ready. -/
def initialPlan (runId workflowId : String) (stages : List Stage) : DependencyPlan where
  runId := runId
  workflowId := workflowId
  state := .running
  stages := stages.map fun stage =>
    let isReady := (stages.map (·.index)).min? == some stage.index
    { stageIndex := stage.index, parallelWith := stage.parallelWith
      state := if isReady then .ready else .blocked
      steps := stage.steps.map fun step =>
        { stageIndex := step.stageIndex, stepIndex := step.stepIndex, stepId := step.stepId, workItems := []
          state := if isReady then .ready else .blocked } }

/-- `CreateWorkflowDependencyPlan`. -/
def createWorkflowDependencyPlan (runId workflowId : String) (stages : List Stage) : Ctl Unit := do
  .ofExcept (rules [
    (runId == "", "submission id is required"),
    (workflowId == "", "workflow id is required"),
    (stages.isEmpty, "normalized stages are required")])
  match ← query (getWorkflowRun · runId) with
  | none => .fail ("workflow run " ++ runId ++ " not found")
  | some _ => do
    match ← getWorkflowDependencyState rt runId with
    | some _ => .fail ("dependency plan already exists for submission " ++ runId)
    | none => do
      .ofExcept (checkPlanStages [] [] stages)
      .ofExcept (validateDependencyPlan (initialPlan runId workflowId stages))
      call rt fun i => insertWorkflowDependencySteps i.fk (dependencyStepRecords runId i.now.format stages)
      setWorkflowDependencyState rt runId (initialPlan runId workflowId stages)

/-- The compilation of the first stage; a workflow without steps has none. -/
def compileInitialStage (run : WorkflowRunRecord) (workflow : WorkflowDefinition) :
    Except String (Option (List Stage × CompileStageResult)) :=
  if workflow.steps.isEmpty then do
    let _ ← rt.prepareForAdmission run []
    pure none
  else do
    let stages ← wrapError "normalize workflow stages" (normalizeStages workflow)
    let result ← wrapError "compile initial workflow stage" (compileWorkflowStage rt workflow [] stages 0)
    let admitted ← admitStage rt run result
    pure (some (stages, admitted))

/-- Queue the work items of the first stage, if it has any. -/
def queueInitialItems (records : StageRecords) : Ctl Unit :=
  if records.items.isEmpty then pure ()
  else
    withContext "queue work items"
      (call rt fun i => queueWorkItems i.fk ⟨records.items, records.resourceConstraints, records.queued⟩)

/-- Queue the first stage and record the memberships. -/
def queueInitialStage (runId : String) (records : StageRecords) : Ctl Unit := do
  queueInitialItems rt records
  records.memberships.forM fun m =>
    withContext "record compiled work item membership" (recordCompiledWorkItemMembership rt runId m)

/-- A first stage without work items is over at once. -/
def activateIfCompleted (submission : Submission) (stageIndex : ℤ) (completed : Bool) : Ctl Unit :=
  if completed then activateNextReadyWorkflowStage rt submission.run.id stageIndex submission.submittedAt
  else pure ()

/-- The plan and the first stage of a run whose row is there: how many work items it starts with. -/
def startRun (submission : Submission) (codeVersion : String) (stages : List Stage)
    (result : CompileStageResult) : Ctl ℕ := do
  let runId := submission.run.id
  withContext "create workflow dependency plan"
    (createWorkflowDependencyPlan rt runId submission.run.workflowId stages)
  let records ← .ofExcept (persistenceRecordsFromCompiledStageResults rt runId result codeVersion
    submission.submittedAt)
  queueInitialStage rt runId records
  let completed ← markCompiledStageEmptyStepsCompleted rt runId result
  activateIfCompleted rt submission result.stageIndex completed
  pure records.items.length

/-- `submitAdmittedWorkflowReadsToStore`, from the admitted sources on. -/
def submitAdmittedWorkflow (submission : Submission) : Ctl ℕ := do
  let workflow ← .ofExcept (wrapError "decode cached workflow source" (rt.admittedWorkflow submission.run))
  withContext "upsert project" (call rt fun i => upsertProject i.fk submission.project)
  withContext "upsert workflow" (call rt fun i => upsertWorkflow i.fk submission.workflow)
  let codeVersion ← .ofExcept (rt.codeVersion workflow [])
  let compiled ← .ofExcept (compileInitialStage rt submission.run workflow)
  withContext "create workflow run" (call rt fun i => createWorkflowRun i.fk submission.run)
  match compiled with
  | none => pure 0
  | some (stages, result) => do
    withContext "insert stage plan"
      (call rt fun i => insertStagePlan i.fk submission.run.id (stageRecordsFromWorkflow submission workflow))
    startRun rt submission codeVersion stages result

/-- `submitWorkflowHandler`. -/
def submitWorkflowHandler (submission : Submission) : Ctl Answer := do
  match ← (submitAdmittedWorkflow rt submission).attempt with
  | .ok workItems => pure (.accepted workItems)
  | .error e => pure (.serverError ("workflow admission: " ++ e))

end

end GoEtl.Controller
