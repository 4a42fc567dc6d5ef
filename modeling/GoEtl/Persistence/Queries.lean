import GoEtl.Persistence.Claim

/-!
# Reading a run back

The store's queries that the controller derives the state of a run from: the run, its work items, what
is queued and running, how its attempts ended, and the memberships and outputs of its steps. Each
is one read of the database; the orders are those of the statements' `ORDER BY`.
-/

namespace GoEtl.Persistence

open Library Model

/-- `GetProject`. -/
def getProject (db : Store) (projectId : String) : Option ProjectRecord := db.projects.lookup (·.id == projectId)

/-- `GetWorkflow`. -/
def getWorkflow (db : Store) (workflowId : String) : Option WorkflowRecord := db.workflows.lookup (·.id == workflowId)

/-- `GetWorkflowRun`. -/
def getWorkflowRun (db : Store) (runId : String) : Option WorkflowRunRecord :=
  db.workflowInstances.lookup (·.id == runId)

/-- The stage is not over: its state is none of `completed`, `failed` and `skipped`. -/
def WorkflowStageRecord.isOpen (stage : WorkflowStageRecord) : Bool :=
  stage.state != .completed && stage.state != .failed && stage.state != .skipped

/-- The order of runs: by creation, then by id, both as texts. -/
def WorkflowRunRecord.before (a b : WorkflowRunRecord) : Prop :=
  a.createdAt < b.createdAt ∨ (a.createdAt = b.createdAt ∧ a.id ≤ b.id)

instance : DecidableRel WorkflowRunRecord.before := fun _ _ => inferInstanceAs (Decidable (_ ∨ _))

/-- `ListActiveWorkflowRuns`: the runs that have no stage row or one that is not over. -/
def listActiveWorkflowRuns (db : Store) : List WorkflowRunRecord :=
  (db.workflowInstances.rows.filter fun run =>
    !db.workflowStages.any (·.runId == run.id) ||
      db.workflowStages.any fun stage => stage.runId == run.id && stage.isOpen).insertionSort (·.before ·)

/-- The number of failed attempts on the work items of a run. -/
def failedOfRun (db : Store) (runId : String) : ℕ :=
  db.failedWork.count fun failed => db.workItems.any fun x => x.id == failed.workItemId && x.runId == runId

/-- The `Failed` count of `CountWorkItemsForRun`. -/
def countFailedForRun (db : Store) (runId : String) : Except String ℕ :=
  if runId = "" then .error "run id is required" else .ok (failedOfRun db runId)

/-- `GetWorkItem`. -/
def getWorkItem (db : Store) (workItemId : String) : Option WorkItemRecord :=
  db.workItems.lookup (·.id == workItemId)

/-- `GetWorkflowStepOutputFact`. -/
def getWorkflowStepOutputFact (db : Store) (runId : String) (stepIndex : ℤ) :
    Option WorkflowStepOutputFactRecord :=
  db.stepOutputFacts.lookup fun r => r.runId == runId && r.stepIndex == stepIndex

/-- The order of a run's work items: by stage, then by index, then by id. -/
def WorkItemRecord.before (a b : WorkItemRecord) : Prop :=
  a.stageIndex < b.stageIndex ∨
    (a.stageIndex = b.stageIndex ∧
      (a.workItemIndex < b.workItemIndex ∨ (a.workItemIndex = b.workItemIndex ∧ a.id ≤ b.id)))

instance : DecidableRel WorkItemRecord.before := fun _ _ => inferInstanceAs (Decidable (_ ∨ _))

/-- `ListWorkItemsForRun`. -/
def listWorkItemsForRun (db : Store) (runId : String) : Except String (List WorkItemRecord) :=
  if runId = "" then .error "run id is required"
  else .ok ((db.workItems.rows.filter (·.runId == runId)).insertionSort (·.before ·))

/-- The order of the memberships of a step: by index, then by id. -/
def WorkflowDependencyWorkItemRecord.before (a b : WorkflowDependencyWorkItemRecord) : Prop :=
  a.workItemIndex < b.workItemIndex ∨ (a.workItemIndex = b.workItemIndex ∧ a.workItemId ≤ b.workItemId)

instance : DecidableRel WorkflowDependencyWorkItemRecord.before := fun _ _ =>
  inferInstanceAs (Decidable (_ ∨ _))

/-- The membership is in this step. -/
def WorkflowDependencyWorkItemRecord.ofStep (runId : String) (stageIndex stepIndex : ℤ)
    (r : WorkflowDependencyWorkItemRecord) : Bool :=
  r.runId == runId && r.stageIndex == stageIndex && r.stepIndex == stepIndex

/-- `ListWorkflowDependencyWorkItems`. -/
def listWorkflowDependencyWorkItems (db : Store) (runId : String) (stageIndex stepIndex : ℤ) :
    Except String (List WorkflowDependencyWorkItemRecord) :=
  if runId = "" then .error "run id is required"
  else if stageIndex < 0 then .error "stage index must be non-negative"
  else if stepIndex < 0 then .error "step index must be non-negative"
  else
    .ok ((db.dependencyWorkItems.rows.filter
      (WorkflowDependencyWorkItemRecord.ofStep runId stageIndex stepIndex)).insertionSort (·.before ·))

/-- `ListQueuedWorkItems`: the same statement as the one a claim lists the queue with. -/
def listQueuedWorkItems (db : Store) : List QueuedWorkRecord := listQueuedWorkForClaim db

/-- `QueuedResourceConstraintCheckRecord`. -/
structure QueuedResourceConstraintCheckRecord where
  (workItemId queuedAt : String)
  constraintIndex : ℤ
  resourceKey : String
  /-- The units in use, the units requested, the comparison and the target. -/
  check : ResourceConstraintCheck
  deriving DecidableEq

/-- `queued_work JOIN work_item_resource_constraints`, of which the view `queued_resource_constraint_checks` is made. -/
def queuedConstraints (db : Store) : List (QueuedRow × WorkItemResourceConstraintRecord) :=
  db.queuedWork.rows.flatMap fun row =>
    (db.resourceConstraints.rows.filter (·.workItemId == row.workItemId)).map (row, ·)

/-- The order of the view: by queueing time, then by work item, then by the constraint's index. -/
def checkBefore (a b : QueuedRow × WorkItemResourceConstraintRecord) : Prop :=
  a.1.queuedAt < b.1.queuedAt ∨ (a.1.queuedAt = b.1.queuedAt ∧
    (a.1.workItemId < b.1.workItemId ∨
      (a.1.workItemId = b.1.workItemId ∧ a.2.constraintIndex ≤ b.2.constraintIndex)))

instance : DecidableRel checkBefore := fun _ _ => inferInstanceAs (Decidable (_ ∨ _))

/-- A row of the view, with the units in use. -/
def queuedCheck (db : Store) (pair : QueuedRow × WorkItemResourceConstraintRecord) :
    Except Violation QueuedResourceConstraintCheckRecord := do
  let check ← constraintCheck db pair.2
  pure ⟨pair.1.workItemId, pair.1.queuedAt, pair.2.constraintIndex, pair.2.resourceKey, check⟩

/-- `ListQueuedResourceConstraintChecks`. -/
def listQueuedResourceConstraintChecks (db : Store) :
    Except StoreError (List QueuedResourceConstraintCheckRecord) :=
  (((queuedConstraints db).insertionSort checkBefore).mapM (queuedCheck db)).mapError
    (.sql "list queued resource constraint checks")

/-- `ListWorkItemResourceConstraints`. -/
def listWorkItemResourceConstraints (db : Store) (workItemId : String) :
    Except String (List WorkItemResourceConstraintRecord) :=
  if workItemId = "" then .error "work item id is required"
  else .ok ((db.resourceConstraints.rows.filter (·.workItemId == workItemId)).insertionSort
    (·.constraintIndex ≤ ·.constraintIndex))

/-- `RunningWorkRecord`. -/
structure RunningWorkRecord where
  attemptId : String
  workItem : WorkItemRecord
  (workerId workerSessionId : String)
  executorType : ExecutorType
  (queuedAt startedAt : String)
  deriving DecidableEq, Repr

/-- The order of the running work: by start, then by attempt. -/
def RunningWorkRecord.before (a b : RunningWorkRecord) : Prop :=
  a.startedAt < b.startedAt ∨ (a.startedAt = b.startedAt ∧ a.attemptId ≤ b.attemptId)

instance : DecidableRel RunningWorkRecord.before := fun _ _ => inferInstanceAs (Decidable (_ ∨ _))

/-- The attempt of a row joined with its work item. -/
def joinAttempt (db : Store) (attemptId workItemId : String) : Option (WorkItemRecord × AttemptRecord) := do
  let workItem ← getWorkItem db workItemId
  let attempt ← db.attempts.lookup (·.attemptId == attemptId)
  pure (workItem, attempt)

/-- `ListRunningWork`. -/
def listRunningWork (db : Store) : List RunningWorkRecord :=
  (db.runningWork.rows.filterMap fun r =>
    (joinAttempt db r.attemptId r.workItemId).map fun (workItem, attempt) =>
      ⟨r.attemptId, workItem, coalesce r.workerId, coalesce r.workerSessionId, attempt.executorType,
        r.queuedAt, r.startedAt⟩).insertionSort (·.before ·)

/-- How an attempt ended. -/
inductive TerminalState where
  /-- The text `completed`. -/
  | completed
  /-- The text `failed`. -/
  | failed
  deriving DecidableEq, Repr

/-- `TerminalAttemptRecord`. -/
structure TerminalAttemptRecord where
  attemptId : String
  workItem : WorkItemRecord
  terminalState : TerminalState
  workerId : String
  executorType : ExecutorType
  (queuedAt startedAt finishedAt error skippedParentId : String)
  (outputJson outputJsonSha256 preStateSha256 postStateSha256 : String)
  deriving DecidableEq, Repr

/-- The order of the ended attempts: by their end, then by attempt. -/
def TerminalAttemptRecord.before (a b : TerminalAttemptRecord) : Prop :=
  a.finishedAt < b.finishedAt ∨ (a.finishedAt = b.finishedAt ∧ a.attemptId ≤ b.attemptId)

instance : DecidableRel TerminalAttemptRecord.before := fun _ _ => inferInstanceAs (Decidable (_ ∨ _))

/-- A completed attempt as an ended one. -/
def CompletedWorkRecord.terminal (db : Store) (r : CompletedWorkRecord) : Option TerminalAttemptRecord :=
  (joinAttempt db r.attemptId r.workItemId).map fun (workItem, attempt) =>
    ⟨r.attemptId, workItem, .completed, coalesce attempt.workerId, attempt.executorType, r.queuedAt,
      r.startedAt, r.completedAt, "", coalesce r.skippedParentId, r.outputJson, r.outputJsonSha256,
      r.preStateSha256, r.postStateSha256⟩

/-- A failed attempt as an ended one. -/
def FailedWorkRecord.terminal (db : Store) (r : FailedWorkRecord) : Option TerminalAttemptRecord :=
  (joinAttempt db r.attemptId r.workItemId).map fun (workItem, attempt) =>
    ⟨r.attemptId, workItem, .failed, coalesce attempt.workerId, attempt.executorType, r.queuedAt,
      r.startedAt, r.failedAt, r.error, "", "", "", "", ""⟩

/-- `ListTerminalAttemptsForRun`. -/
def listTerminalAttemptsForRun (db : Store) (runId : String) : Except String (List TerminalAttemptRecord) :=
  if runId = "" then .error "run id is required"
  else
    .ok (((db.completedWork.rows.filterMap (·.terminal db) ++ db.failedWork.rows.filterMap (·.terminal db)).filter
      (·.workItem.runId == runId)).insertionSort (·.before ·))

end GoEtl.Persistence
