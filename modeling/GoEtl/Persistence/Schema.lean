import GoEtl.Library.Table
import GoEtl.Library.Transaction
import GoEtl.Model.ResourceConstraint
import GoEtl.Text.Json
import GoEtl.Text.Timestamp

/-!
# The store's database

`internal/persistence/db_adapter_sqlite.go`: the tables of the store with their keys,
unique indexes and checks. A row type keeps the source's record under its own field names;
ids and times are texts, whose order (by code point) is the order of their UTF-8 bytes that
SQLite and Go compare by. A column that may be null is an `Option` where null and the empty
text are told apart, and a text with the empty one for null where the store itself reads
null back as the empty text.

## The model

`Store` is the database: one `Library.Table` per table, so that the keys and checks hold in
every value of the type. Foreign keys are not part of a table: SQLite enforces them only on a
connection that executed `PRAGMA foreign_keys = ON`, which the store does once, on one
connection of a pool that may open more. Every transaction therefore takes a flag that says
whether its connection enforces them, and results hold for both.
-/

namespace GoEtl.Persistence

open Library Model Text

/-! ### Enumerations

A text column that a check or a validator restricts to a few values. -/

/-- `ExecutorTypeWorker`, `ExecutorTypeController`. -/
inductive ExecutorType where
  /-- The text `worker`. -/
  | worker
  /-- The text `controller`. -/
  | controller
  /-- Any other text. -/
  | other (text : String)
  deriving DecidableEq, Repr

/-- `WorkerSessionStatusActive`, `…Stopped`, `…Dead`. -/
inductive WorkerSessionStatus where
  /-- The text `active`. -/
  | active
  /-- The text `stopped`. -/
  | stopped
  /-- The text `dead`. -/
  | dead
  /-- Any other text. -/
  | other (text : String)
  deriving DecidableEq, Repr

/-- The state of a row of `workflow_stages`. -/
inductive StageState where
  | ready | running | completed | failed | skipped | blocked
  /-- Any other text. -/
  | other (text : String)
  deriving DecidableEq, Repr

/-- The kind of a step's output fact. -/
inductive OutputKind where
  | aggregate | emptyFanout | skipped
  /-- Any other text. -/
  | other (text : String)
  deriving DecidableEq, Repr

/-! ### Rows -/

/-- A row of `projects`. -/
structure ProjectRecord where
  (id name repositoryIdentity : String)
  sourceRevisionId : Option String
  (configPath sourceObjectId configSha256 createdAt : String)
  deriving DecidableEq, Repr

/-- A row of `workflows`. -/
structure WorkflowRecord where
  (id projectId name repositoryIdentity : String)
  sourceRevisionId : Option String
  (workflowPath sourceObjectId workflowSha256 createdAt : String)
  deriving DecidableEq, Repr

/-- A row of `workflow_instances`. -/
structure WorkflowRunRecord where
  (id projectId workflowId submissionContextJson createdAt : String)
  deriving DecidableEq, Repr

/-- A row of `workflow_stages`; an empty text is a null column. -/
structure WorkflowStageRecord where
  runId : String
  stageIndex : ℤ
  (stepId stageSourceReference : String)
  state : StageState
  (createdAt readyAt startedAt completedAt failedAt outputJson outputJsonSha256 : String)
  deriving DecidableEq, Repr

/-- A row of `workflow_dependency_steps`. -/
structure WorkflowDependencyStepRecord where
  runId : String
  (stageIndex stepIndex : ℤ)
  (stepId parallelWith createdAt : String)
  deriving DecidableEq, Repr

/-- A row of `workflow_dependency_work_items`: a work item's membership in a step. -/
structure WorkflowDependencyWorkItemRecord where
  runId : String
  (stageIndex stepIndex : ℤ)
  workItemId : String
  workItemIndex : ℤ
  createdAt : String
  deriving DecidableEq, Repr

/-- A row of `workflow_step_output_facts`; an empty output is a null column. -/
structure WorkflowStepOutputFactRecord where
  runId : String
  stepIndex : ℤ
  (outputJson outputJsonSha256 : String)
  outputJsonBytes : ℤ
  outputJsonPruned : Bool
  outputKind : OutputKind
  (createdAt updatedAt : String)
  deriving DecidableEq, Repr

/-- A row of `work_items`. -/
structure WorkItemRecord where
  (id runId : String)
  (stageIndex workItemIndex : ℤ)
  (workerPayloadJson resolvedInputsSha256 createdAt : String)
  deriving DecidableEq, Repr

/-- A row of `work_item_resource_constraints`. -/
structure WorkItemResourceConstraintRecord where
  workItemId : String
  constraintIndex : ℤ
  resourceKey : String
  requestedUnits : Int64
  operator : ResourceOperator
  targetUnits : Int64
  createdAt : String
  deriving DecidableEq

/-- A row of `workers`. -/
structure WorkerRecord where
  id : String
  executionHandle : Option String
  createdAt : String
  deriving DecidableEq, Repr

/-- A row of `worker_sessions`. -/
structure WorkerSessionRecord where
  (id workerId : String)
  status : WorkerSessionStatus
  (registeredAt lastHeartbeatAt : String)
  (endedAt endReason executionHandle : Option String)
  deriving DecidableEq, Repr

/-- A row of `work_item_attempts`. -/
structure AttemptRecord where
  (attemptId workItemId : String)
  (workerId workerSessionId : Option String)
  executorType : ExecutorType
  startedAt : String
  deriving DecidableEq, Repr

/-- A row of `queued_work`. -/
structure QueuedRow where
  (workItemId queuedAt : String)
  deriving DecidableEq, Repr

/-- A row of `running_work`. -/
structure RunningRow where
  (attemptId workItemId : String)
  (workerId workerSessionId : Option String)
  (queuedAt startedAt : String)
  deriving DecidableEq, Repr

/-- A row of `abandoned_work`. -/
structure AbandonedWorkRecord where
  (attemptId workItemId workerId workerSessionId queuedAt startedAt abandonedAt reason : String)
  deriving DecidableEq, Repr

/-- A row of `completed_work`. -/
structure CompletedWorkRecord where
  (attemptId workItemId : String)
  skippedParentId : Option String
  (outputJson outputJsonSha256 preStateSha256 postStateSha256 : String)
  (queuedAt startedAt completedAt : String)
  deriving DecidableEq, Repr

/-- A row of `failed_work`. -/
structure FailedWorkRecord where
  (attemptId workItemId error queuedAt startedAt failedAt : String)
  deriving DecidableEq, Repr

/-! ### Keys and checks -/

namespace Schema

open Library.Schema

def projects : Schema ProjectRecord := keyed (·.id) fun _ => true

def workflows : Schema WorkflowRecord := keyed (·.id) fun _ => true

def workflowInstances : Schema WorkflowRunRecord :=
  keyed (·.id) fun r => sqliteJsonValid r.submissionContextJson

def workflowStages : Schema WorkflowStageRecord :=
  keyed (fun r => (r.runId, r.stageIndex)) fun r =>
    (match r.state with | .other _ => false | _ => true) &&
      (r.outputJson == "" || sqliteJsonValid r.outputJson)

def dependencySteps : Schema WorkflowDependencyStepRecord :=
  unique (keyed (fun r => (r.runId, r.stepIndex)) fun _ => true)
    fun r => some (r.runId, r.stageIndex, r.stepId)

def dependencyWorkItems : Schema WorkflowDependencyWorkItemRecord :=
  unique (keyed (fun r => (r.runId, r.workItemId)) fun _ => true)
    fun r => some (r.runId, r.stepIndex, r.workItemIndex)

def stepOutputFacts : Schema WorkflowStepOutputFactRecord :=
  keyed (fun r => (r.runId, r.stepIndex)) fun r =>
    (match r.outputKind with | .other _ => false | _ => true) &&
      (r.outputJson == "" || sqliteJsonValid r.outputJson)

def workItems : Schema WorkItemRecord :=
  unique (keyed (·.id) fun r => sqliteJsonValid r.workerPayloadJson)
    fun r => some (r.runId, r.stageIndex, r.workItemIndex)

def resourceConstraints : Schema WorkItemResourceConstraintRecord :=
  unique
    (keyed (fun r => (r.workItemId, r.constraintIndex)) fun r =>
      decide (0 ≤ r.constraintIndex) && r.resourceKey != "" && decide (0 < r.requestedUnits) &&
        decide (0 ≤ r.targetUnits) && r.operator.isSupported)
    fun r => some (r.workItemId, r.resourceKey)

def workers : Schema WorkerRecord := keyed (·.id) fun _ => true

/-- A session is active exactly as long as it has no end. -/
def workerSessions : Schema WorkerSessionRecord :=
  unique
    (keyed (·.id) fun r =>
      match r.status with
      | .active => r.endedAt.isNone
      | .stopped | .dead => r.endedAt.isSome
      | .other _ => false)
    fun r => some (r.workerId, r.id)

/-- A worker's attempt names its worker and session, a controller's attempt names neither. -/
def attempts : Schema AttemptRecord :=
  keyed (·.attemptId) fun r =>
    match r.executorType with
    | .worker => r.workerId.isSome && r.workerSessionId.isSome
    | .controller => r.workerId.isNone && r.workerSessionId.isNone
    | .other _ => false

def queuedWork : Schema QueuedRow := keyed (·.workItemId) fun _ => true

/-- One running row per attempt, per work item and per worker session. -/
def runningWork : Schema RunningRow :=
  unique (unique (keyed (·.attemptId) fun _ => true) fun r => some r.workItemId)
    fun r => r.workerSessionId

def abandonedWork : Schema AbandonedWorkRecord := keyed (·.attemptId) fun _ => true

def completedWork : Schema CompletedWorkRecord :=
  keyed (·.attemptId) fun r => sqliteJsonValid r.outputJson

def failedWork : Schema FailedWorkRecord := keyed (·.attemptId) fun _ => true

end Schema

/-- **The database.** -/
structure Store where
  /-- `projects`. -/
  projects : Table Schema.projects
  /-- `workflows`. -/
  workflows : Table Schema.workflows
  /-- `workflow_instances`: the runs. -/
  workflowInstances : Table Schema.workflowInstances
  /-- `workflow_stages`. -/
  workflowStages : Table Schema.workflowStages
  /-- `workflow_dependency_steps`. -/
  dependencySteps : Table Schema.dependencySteps
  /-- `workflow_dependency_work_items`. -/
  dependencyWorkItems : Table Schema.dependencyWorkItems
  /-- `workflow_step_output_facts`. -/
  stepOutputFacts : Table Schema.stepOutputFacts
  /-- `work_items`. -/
  workItems : Table Schema.workItems
  /-- `work_item_resource_constraints`. -/
  resourceConstraints : Table Schema.resourceConstraints
  /-- `workers`. -/
  workers : Table Schema.workers
  /-- `worker_sessions`. -/
  workerSessions : Table Schema.workerSessions
  /-- `work_item_attempts`. -/
  attempts : Table Schema.attempts
  /-- `queued_work`. -/
  queuedWork : Table Schema.queuedWork
  /-- `running_work`. -/
  runningWork : Table Schema.runningWork
  /-- `abandoned_work`. -/
  abandonedWork : Table Schema.abandonedWork
  /-- `completed_work`. -/
  completedWork : Table Schema.completedWork
  /-- `failed_work`. -/
  failedWork : Table Schema.failedWork
  deriving DecidableEq

/-- The database after the schema was created. -/
def Store.empty : Store where
  projects := .empty
  workflows := .empty
  workflowInstances := .empty
  workflowStages := .empty
  dependencySteps := .empty
  dependencyWorkItems := .empty
  stepOutputFacts := .empty
  workItems := .empty
  resourceConstraints := .empty
  workers := .empty
  workerSessions := .empty
  attempts := .empty
  queuedWork := .empty
  runningWork := .empty
  abandonedWork := .empty
  completedWork := .empty
  failedWork := .empty

/-! ### Errors and statements -/

/-- What an operation of the store returns for an error. -/
inductive StoreError where
  /-- `ErrWorkerSessionNotActive`: "worker session is not active". -/
  | workerSessionNotActive
  /-- `ErrWorkerSessionBusy`: "worker session already owns running work". -/
  | workerSessionBusy
  /-- `ErrAssignmentNoLongerOwned`: "assignment no longer owned". -/
  | assignmentNoLongerOwned
  /-- An error with this text. -/
  | message (text : String)
  /-- A statement the database refused, with the text that wraps its error. -/
  | sql (context : String) (violation : Violation)
  deriving DecidableEq, Repr

/-- A transaction of the store. -/
abbrev StoreTx (α : Type) := Tx Store StoreError α

/-- `nullString`: the empty text is stored as null. -/
def nullString (value : String) : Option String := if value = "" then none else some value

/-- `COALESCE(column, '')`. -/
def coalesce (value : Option String) : String := value.getD ""

/-- Write a changed table back, on a connection that enforces foreign keys only if the rows the
new row refers to exist. -/
def writeBack {τ : Type} (fk parentsExist : Bool) (put : τ → Store) :
    Except Violation τ → Except Violation Store
  | .error v => .error v
  | .ok t => if fk && !parentsExist then .error .foreignKey else .ok (put t)

theorem writeBack_ok {τ : Type} {fk parentsExist : Bool} {put : τ → Store} {x : Except Violation τ}
    {db : Store} :
    writeBack fk parentsExist put x = .ok db ↔
      ∃ t, x = .ok t ∧ (fk = true → parentsExist = true) ∧ put t = db := by
  cases x <;> cases fk <;> cases parentsExist <;> simp [writeBack]

@[simp] theorem coalesce_some (value : String) : coalesce (some value) = value := rfl

theorem nullString_eq_some {value text : String} :
    nullString value = some text ↔ value = text ∧ text ≠ "" := by
  unfold nullString
  split
  · rename_i h
    subst h
    simp [eq_comm]
  · rename_i h
    constructor
    · rintro ⟨⟩
      exact ⟨rfl, h⟩
    · rintro ⟨rfl, _⟩
      rfl

end GoEtl.Persistence
