import Mathlib.Data.List.Dedup
import GoEtl.Persistence.Catalog

/-!
# Work items and the queue

Inserting work items with their resource constraints, and putting work items in the queue:
`InsertWorkItems`, `QueueWorkItems`, `EnqueueWorkItems` and `CompleteStageIfReady`. All four
are built from the same three loops, `insertWorkItems`, `insertWorkItemResourceConstraints`
and `enqueueWorkItems`, each of which looks for the row it is about to insert in the table it
inserts into, and in no other.
-/

namespace GoEtl.Persistence

open Library

section

variable (fk : Bool)

/-- `insertWorkItems`. -/
def insertWorkItems (items : List WorkItemRecord) : StoreTx Unit :=
  items.forM fun item =>
    insertOnce (·.workItems.lookup (·.id == item.id)) item
      ("work item " ++ item.id ++ " already exists with different values")
      (Tx.exec
        (fun db => writeBack fk
          (db.workflowStages.any fun s => s.runId == item.runId && s.stageIndex == item.stageIndex)
          ({ db with workItems := · }) (db.workItems.insert item))
        (.sql ("insert work item " ++ item.id)))

/-- `insertWorkItemResourceConstraints`. -/
def insertWorkItemResourceConstraints (constraints : List WorkItemResourceConstraintRecord) :
    StoreTx Unit :=
  constraints.forM fun c =>
    insertOnce
      (·.resourceConstraints.lookup fun r =>
        r.workItemId == c.workItemId && r.constraintIndex == c.constraintIndex)
      c
      ("work item resource constraint " ++ c.workItemId ++ "/" ++ toString c.constraintIndex ++
        " already exists with different values")
      (Tx.exec
        (fun db => writeBack fk (db.workItems.any (·.id == c.workItemId))
          ({ db with resourceConstraints := · }) (db.resourceConstraints.insert c))
        (.sql ("insert work item resource constraint " ++ c.workItemId ++ "/" ++
          toString c.constraintIndex)))

/-- One round of `enqueueWorkItems`. Only the queue is looked at: a work item that is running or
finished is queued again. -/
def enqueueWorkItem (item : QueuedWorkRecord) : StoreTx Unit := do
  match ← Tx.read (·.queuedWork.lookup (·.workItemId == item.id)) with
  | some existing =>
    Tx.failIf (existing.queuedAt != item.queuedAt)
      (.message ("queued work item " ++ item.id ++ " already exists with different queued_at"))
  | none =>
    Tx.exec
      (fun db => writeBack fk (db.workItems.any (·.id == item.id)) ({ db with queuedWork := · })
        (db.queuedWork.insert ⟨item.id, item.queuedAt⟩))
      (.sql ("enqueue work item " ++ item.id))

/-- `enqueueWorkItems`. -/
def enqueueWorkItems (items : List QueuedWorkRecord) : StoreTx Unit := items.forM (enqueueWorkItem fk)

/-- `InsertWorkItems`. -/
def insertWorkItemsOp (items : List WorkItemRecord) : StoreTx Unit := do
  validated (validateWorkItems items)
  insertWorkItems fk items

/-- `QueueWorkItems`. -/
def queueWorkItems (request : QueueWorkItemsRequest) : StoreTx Unit := do
  validated request.validate
  insertWorkItems fk request.workItems
  insertWorkItemResourceConstraints fk request.resourceConstraints
  enqueueWorkItems fk request.queuedWork

/-- `EnqueueWorkItems`. -/
def enqueueWorkItemsOp (items : List QueuedWorkRecord) : StoreTx Unit := do
  validated (validateQueuedWorkItems items)
  enqueueWorkItems fk items

/-! ### Completing a stage row -/

/-- `CompleteStageResult`. -/
structure CompleteStageResult where
  /-- The stage, when it was found. -/
  stage : Option WorkflowStageRecord
  /-- Whether the stage is completed now. -/
  completed : Bool
  deriving DecidableEq, Repr

/-- The work item belongs to the stage. -/
def isStageItem (db : Store) (runId : String) (stageIndex : ℤ) (workItemId : String) : Bool :=
  db.workItems.any fun w => w.id == workItemId && w.runId == runId && w.stageIndex == stageIndex

/-- `stageWorkComplete`: the stage has work items, all of them have completed, and none is queued,
running or failed. -/
def stageWorkComplete (db : Store) (runId : String) (stageIndex : ℤ) : Bool :=
  let total := db.workItems.count fun w => w.runId == runId && w.stageIndex == stageIndex
  let ofStage := isStageItem db runId stageIndex
  let completed := ((db.completedWork.rows.map (·.workItemId)).filter ofStage).dedup.length
  decide (0 < total) && completed == total &&
    db.queuedWork.count (ofStage ·.workItemId) == 0 &&
    db.runningWork.count (ofStage ·.workItemId) == 0 &&
    db.failedWork.count (ofStage ·.workItemId) == 0

/-- `stageMatchesCompletionRequest`. -/
def stageMatchesCompletionRequest (stage : WorkflowStageRecord) (request : CompleteStageRequest) : Bool :=
  stage.runId == request.runId && stage.stageIndex == request.stageIndex &&
    stage.completedAt == request.completedAt && stage.outputJson == request.outputJson &&
    stage.outputJsonSha256 == request.outputJsonSha256

/-- The stage row of a completion request. -/
def CompleteStageRequest.isStage (request : CompleteStageRequest) (stage : WorkflowStageRecord) : Bool :=
  stage.runId == request.runId && stage.stageIndex == request.stageIndex

/-- The stage row with the request's completion. -/
def CompleteStageRequest.completedStage (request : CompleteStageRequest) (stage : WorkflowStageRecord) :
    WorkflowStageRecord :=
  { stage with
    state := .completed
    completedAt := request.completedAt
    outputJson := request.outputJson
    outputJsonSha256 := request.outputJsonSha256 }

/-- The writes of `CompleteStageIfReady` on a stage whose work is complete. -/
def completeReadyStage (request : CompleteStageRequest) : StoreTx Unit := do
  Tx.exec
    (fun db => writeBack false true ({ db with workflowStages := · })
      (db.workflowStages.update request.isStage request.completedStage))
    (.sql ("complete stage " ++ request.runId ++ "/" ++ toString request.stageIndex))
  insertWorkItems fk request.readyWorkItems
  insertWorkItemResourceConstraints fk request.readyResourceConstraints
  enqueueWorkItems fk request.readyQueuedWork

/-- `CompleteStageIfReady`. -/
def completeStageIfReady (request : CompleteStageRequest) : StoreTx CompleteStageResult := do
  validated request.validate
  match ← Tx.read (·.workflowStages.lookup request.isStage) with
  | none => pure ⟨none, false⟩
  | some stage =>
    match stage.state with
    | .completed => do
      Tx.failIf (!stageMatchesCompletionRequest stage request)
        (.message ("stage " ++ request.runId ++ "/" ++ toString request.stageIndex ++
          " already completed with different values"))
      pure ⟨some stage, true⟩
    | .ready | .running | .other _ => do
      let ready ← Tx.read (stageWorkComplete · request.runId request.stageIndex)
      if ready then do
        completeReadyStage fk request
        pure ⟨some (request.completedStage stage), true⟩
      else pure ⟨some stage, false⟩
    | .failed | .skipped | .blocked =>
      throw (.message ("stage " ++ request.runId ++ "/" ++ toString request.stageIndex ++ " is " ++
        stage.state.text ++ " and cannot be completed"))

end

end GoEtl.Persistence
