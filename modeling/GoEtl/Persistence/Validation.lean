import GoEtl.Persistence.Schema

/-!
# Requests and their validation

The requests of the store's write operations and the `validate` methods that every operation
runs before it begins a transaction. A validator is a list of rules, each a condition that
must not hold and the text of the error it gives; the first rule that fails is the error
(`rules`). A validator of a list prefixes the error of an element with its index
(`validateEach`).

`rules_ok` and `validateEach_ok` say what a request that passed satisfies.
-/

namespace GoEtl.Persistence

open Library Model Text

/-! ### Rules -/

/-- The first failing rule of a validator, as an error. -/
def rules : List (Bool × String) → Except String Unit
  | [] => .ok ()
  | (failed, text) :: rest => if failed then .error text else rules rest

variable {u : Unit}

theorem rules_ok {rs : List (Bool × String)} :
    rules rs = .ok u ↔ ∀ r ∈ rs, r.1 = false := by
  induction rs with
  | nil => simp [rules]
  | cons r rs ih =>
    obtain ⟨failed, text⟩ := r
    cases failed <;> simp [rules, ih]

/-- A rule that the text is a time. -/
def timestampRule (name value : String) : Bool × String :=
  (!validTimestamp value, name ++ " must be RFC3339/RFC3339Nano")

/-- Prefix an error, as `fmt.Errorf("…: %w", err)` does. -/
def wrapError {α : Type} (context : String) : Except String α → Except String α
  | .ok a => .ok a
  | .error e => .error (context ++ ": " ++ e)

variable {α : Type} {context : String}

@[simp] theorem wrapError_ok {x : Except String α} {a : α} :
    wrapError context x = .ok a ↔ x = .ok a := by
  cases x <;> simp [wrapError]

/-- The loop over the elements of a list, from an index on. -/
def validateFrom {α : Type} (context : String) (validate : α → Except String Unit) (index : ℕ) :
    List α → Except String Unit
  | [] => .ok ()
  | x :: xs =>
    match validate x with
    | .error e => .error (context ++ " " ++ toString index ++ ": " ++ e)
    | .ok () => validateFrom context validate (index + 1) xs

/-- A list that must not be empty, each of whose elements is validated. -/
def validateEach {α : Type} (context plural : String) (validate : α → Except String Unit)
    (xs : List α) : Except String Unit :=
  if xs.isEmpty then .error (plural ++ " are required") else validateFrom context validate 0 xs

/-- Validate a list that may be empty. -/
def unlessEmpty {α : Type} (xs : List α) (validate : List α → Except String Unit) :
    Except String Unit :=
  if xs.isEmpty then .ok () else validate xs

theorem validateFrom_ok {validate : α → Except String Unit} {index : ℕ} {xs : List α} :
    validateFrom context validate index xs = .ok u ↔ ∀ x ∈ xs, validate x = .ok () := by
  induction xs generalizing index with
  | nil => simp [validateFrom]
  | cons x xs ih =>
    unfold validateFrom
    rw [List.forall_mem_cons]
    cases validate x <;> simp [ih]

theorem validateEach_ok {plural : String} {validate : α → Except String Unit} {xs : List α} :
    validateEach context plural validate xs = .ok u ↔ xs ≠ [] ∧ ∀ x ∈ xs, validate x = .ok () := by
  unfold validateEach
  cases xs with
  | nil => simp
  | cons x xs => simp [validateFrom_ok]

/-! ### Records -/

/-- The text of a status, in error messages. -/
def StageState.text : StageState → String
  | .ready => "ready" | .running => "running" | .completed => "completed" | .failed => "failed"
  | .skipped => "skipped" | .blocked => "blocked" | .other text => text

/-- `validStageState`. -/
def StageState.valid : StageState → Bool
  | .other _ => false
  | _ => true

/-- The text of an output kind, in error messages. -/
def OutputKind.text : OutputKind → String
  | .aggregate => "aggregate" | .emptyFanout => "empty_fanout" | .skipped => "skipped"
  | .other text => text

/-- `validWorkflowStepOutputKind`. -/
def OutputKind.valid : OutputKind → Bool
  | .other _ => false
  | _ => true

/-- The text of an operator, in error messages. -/
def operatorText : ResourceOperator → String
  | .equal => "=" | .notEqual => "!=" | .lessThan => "<" | .greaterThan => ">"
  | .lessThanOrEqual => "<=" | .greaterThanOrEqual => ">=" | .unsupported text => text

def ProjectRecord.validate (p : ProjectRecord) : Except String Unit :=
  rules [
    (p.id == "", "project id is required"),
    (p.repositoryIdentity == "", "project repository identity is required"),
    (p.configPath == "", "project config path is required"),
    (p.configSha256 == "", "project config sha256 is required"),
    (p.createdAt == "", "project created at is required")]

def WorkflowRecord.validate (w : WorkflowRecord) : Except String Unit :=
  rules [
    (w.id == "", "workflow id is required"),
    (w.projectId == "", "workflow project id is required"),
    (w.repositoryIdentity == "", "workflow repository identity is required"),
    (w.workflowPath == "", "workflow path is required"),
    (w.workflowSha256 == "", "workflow sha256 is required"),
    (w.createdAt == "", "workflow created at is required")]

def WorkflowRunRecord.validate (r : WorkflowRunRecord) : Except String Unit :=
  rules [
    (r.id == "", "run id is required"),
    (r.projectId == "", "run project id is required"),
    (r.workflowId == "", "run workflow id is required"),
    (r.submissionContextJson == "", "run submission context json is required"),
    (!jsonValid r.submissionContextJson, "run submission context json must be valid JSON"),
    (r.createdAt == "", "run created at is required")]

def WorkflowStageRecord.validate (s : WorkflowStageRecord) : Except String Unit :=
  rules [
    (s.runId == "", "stage run id is required"),
    (decide (s.stageIndex < 0), "stage index must be non-negative"),
    (s.stepId == "", "stage step id is required"),
    (s.stageSourceReference == "", "stage source reference is required"),
    (!s.state.valid, "unsupported stage state: " ++ s.state.text),
    (s.createdAt == "", "stage created at is required"),
    (s.outputJson != "" && !jsonValid s.outputJson, "stage output json must be valid JSON")]

def WorkItemRecord.validate (w : WorkItemRecord) : Except String Unit :=
  rules [
    (w.id == "", "work item id is required"),
    (w.runId == "", "work item run id is required"),
    (decide (w.stageIndex < 0), "work item stage index must be non-negative"),
    (decide (w.workItemIndex < 0), "work item index must be non-negative"),
    (w.workerPayloadJson == "", "work item worker payload json is required"),
    (!jsonValid w.workerPayloadJson, "work item worker payload json must be valid JSON"),
    (w.resolvedInputsSha256 == "", "work item resolved inputs sha256 is required"),
    (w.createdAt == "", "work item created at is required")]

def WorkItemResourceConstraintRecord.validate (r : WorkItemResourceConstraintRecord) :
    Except String Unit :=
  rules [
    (r.workItemId == "", "resource constraint work item id is required"),
    (decide (r.constraintIndex < 0), "resource constraint index must be non-negative"),
    (r.resourceKey == "", "resource constraint key is required"),
    (decide (r.requestedUnits ≤ 0), "resource constraint requested units must be positive"),
    (!r.operator.isSupported, "unsupported resource constraint operator: " ++ operatorText r.operator),
    (decide (r.targetUnits < 0), "resource constraint target units must be non-negative"),
    (r.createdAt == "", "resource constraint created at is required")]

def WorkflowDependencyStepRecord.validate (s : WorkflowDependencyStepRecord) : Except String Unit :=
  rules [
    (s.runId == "", "dependency step run id is required"),
    (decide (s.stageIndex < 0), "dependency step stage index must be non-negative"),
    (decide (s.stepIndex < 0), "dependency step index must be non-negative"),
    (s.stepId == "", "dependency step id is required"),
    (s.createdAt == "", "dependency step created at is required")]

def WorkflowDependencyWorkItemRecord.validate (r : WorkflowDependencyWorkItemRecord) :
    Except String Unit :=
  rules [
    (r.runId == "", "dependency work item run id is required"),
    (r.workItemId == "", "dependency work item id is required"),
    (decide (r.workItemIndex < 0), "dependency work item index must be non-negative"),
    (decide (r.stageIndex < 0), "dependency stage index must be non-negative"),
    (decide (r.stepIndex < 0), "dependency step index must be non-negative"),
    (r.createdAt == "", "dependency work item created at is required")]

def WorkflowStepOutputFactRecord.validate (r : WorkflowStepOutputFactRecord) : Except String Unit :=
  rules [
    (r.runId == "", "workflow step output fact run id is required"),
    (decide (r.stepIndex < 0), "workflow step output fact step index must be non-negative"),
    (r.outputJson != "" && !jsonValid r.outputJson,
      "workflow step output fact output json must be valid JSON"),
    (r.outputJsonSha256 == "", "workflow step output fact output json sha256 is required"),
    (decide (r.outputJsonBytes < 0), "workflow step output fact output json bytes must be non-negative"),
    (!r.outputKind.valid, "unsupported workflow step output kind: " ++ r.outputKind.text),
    (r.createdAt == "", "workflow step output fact created at is required"),
    (r.updatedAt == "", "workflow step output fact updated at is required")]

/-! ### Requests -/

/-- `QueuedWorkRecord`: a work item and when it was queued. -/
structure QueuedWorkRecord extends WorkItemRecord where
  queuedAt : String
  deriving DecidableEq, Repr

/-- `QueueWorkItemsRequest`. -/
structure QueueWorkItemsRequest where
  workItems : List WorkItemRecord
  resourceConstraints : List WorkItemResourceConstraintRecord
  queuedWork : List QueuedWorkRecord
  deriving DecidableEq

/-- `CompleteStageRequest`. -/
structure CompleteStageRequest where
  runId : String
  stageIndex : ℤ
  (outputJson outputJsonSha256 completedAt : String)
  readyWorkItems : List WorkItemRecord
  readyResourceConstraints : List WorkItemResourceConstraintRecord
  readyQueuedWork : List QueuedWorkRecord
  deriving DecidableEq

/-- `RegisterWorkerSessionRequest`. -/
structure RegisterWorkerSessionRequest where
  (workerId sessionId registeredAt executionHandle : String)
  deriving DecidableEq, Repr

/-- `HeartbeatWorkerSessionRequest`. -/
structure HeartbeatWorkerSessionRequest where
  (workerId sessionId heartbeatAt : String)
  deriving DecidableEq, Repr

/-- `EndWorkerSessionRequest`. -/
structure EndWorkerSessionRequest where
  (workerId sessionId : String)
  status : WorkerSessionStatus
  (endedAt reason : String)
  deriving DecidableEq, Repr

/-- `StopWorkerSessionAndRecoverWorkRequest`. -/
structure StopWorkerSessionAndRecoverWorkRequest where
  (workerId sessionId stoppedAt reason : String)
  deriving DecidableEq, Repr

/-- `RecoverExpiredWorkerSessionsRequest`. -/
structure RecoverExpiredWorkerSessionsRequest where
  (cutoff recoveredAt reason : String)
  deriving DecidableEq, Repr

/-- `ClaimWorkRequest`. -/
structure ClaimWorkRequest where
  (attemptId workerId workerSessionId : String)
  executorType : ExecutorType
  (startedAt liveSessionCutoff : String)
  deriving DecidableEq, Repr

/-- `CompleteAttemptRequest`. -/
structure CompleteAttemptRequest where
  (attemptId workerId workerSessionId liveSessionCutoff skippedParentId : String)
  (outputJson outputJsonSha256 preStateSha256 postStateSha256 completedAt : String)
  deriving DecidableEq, Repr

/-- `FailAttemptRequest`. -/
structure FailAttemptRequest where
  (attemptId workerId workerSessionId liveSessionCutoff error failedAt : String)
  deriving DecidableEq, Repr

/-- `validateWorkItems`. -/
def validateWorkItems : List WorkItemRecord → Except String Unit :=
  validateEach "work item" "work items" WorkItemRecord.validate

/-- `validateWorkItemResourceConstraints`. -/
def validateWorkItemResourceConstraints :
    List WorkItemResourceConstraintRecord → Except String Unit :=
  validateEach "resource constraint" "resource constraints" WorkItemResourceConstraintRecord.validate

/-- `validateWorkflowDependencySteps`. -/
def validateWorkflowDependencySteps : List WorkflowDependencyStepRecord → Except String Unit :=
  validateEach "dependency step" "dependency steps" WorkflowDependencyStepRecord.validate

/-- `validateWorkflowDependencyWorkItemRecords`. -/
def validateWorkflowDependencyWorkItemRecords :
    List WorkflowDependencyWorkItemRecord → Except String Unit :=
  validateEach "dependency work item" "dependency work items" WorkflowDependencyWorkItemRecord.validate

/-- The loop of `validateQueuedWorkItems`; its errors name the element without a colon. -/
def validateQueuedWorkItemsFrom (index : ℕ) : List QueuedWorkRecord → Except String Unit
  | [] => .ok ()
  | item :: items =>
    if item.id == "" then .error ("queued work item " ++ toString index ++ " id is required")
    else if item.queuedAt == "" then
      .error ("queued work item " ++ toString index ++ " queued at is required")
    else validateQueuedWorkItemsFrom (index + 1) items

/-- `validateQueuedWorkItems`. -/
def validateQueuedWorkItems (items : List QueuedWorkRecord) : Except String Unit :=
  if items.isEmpty then .error "queued work items are required"
  else validateQueuedWorkItemsFrom 0 items

def QueueWorkItemsRequest.validate (r : QueueWorkItemsRequest) : Except String Unit := do
  validateWorkItems r.workItems
  validateQueuedWorkItems r.queuedWork
  unlessEmpty r.resourceConstraints validateWorkItemResourceConstraints

def CompleteStageRequest.validate (r : CompleteStageRequest) : Except String Unit := do
  rules [
    (r.runId == "", "stage run id is required"),
    (decide (r.stageIndex < 0), "stage index must be non-negative"),
    (r.outputJson == "", "stage output json is required"),
    (!jsonValid r.outputJson, "stage output json must be valid JSON"),
    (r.outputJsonSha256 == "", "stage output json sha256 is required"),
    (r.completedAt == "", "stage completed at is required")]
  unlessEmpty r.readyWorkItems (wrapError "ready work" ∘ validateWorkItems)
  unlessEmpty r.readyResourceConstraints
    (wrapError "ready resource constraints" ∘ validateWorkItemResourceConstraints)
  unlessEmpty r.readyQueuedWork (wrapError "ready queue" ∘ validateQueuedWorkItems)

def RegisterWorkerSessionRequest.validate (r : RegisterWorkerSessionRequest) : Except String Unit :=
  rules [
    (r.workerId == "", "worker id is required"),
    (r.sessionId == "", "worker session id is required"),
    (r.registeredAt == "", "worker session registered at is required"),
    timestampRule "worker session registered at" r.registeredAt]

def HeartbeatWorkerSessionRequest.validate (r : HeartbeatWorkerSessionRequest) : Except String Unit :=
  rules [
    (r.workerId == "", "worker id is required"),
    (r.sessionId == "", "worker session id is required"),
    (r.heartbeatAt == "", "worker session heartbeat at is required"),
    timestampRule "worker session heartbeat at" r.heartbeatAt]

def EndWorkerSessionRequest.validate (r : EndWorkerSessionRequest) : Except String Unit :=
  rules [
    (r.workerId == "", "worker id is required"),
    (r.sessionId == "", "worker session id is required"),
    (r.status != .stopped && r.status != .dead,
      "worker session terminal status must be stopped or dead"),
    (r.endedAt == "", "worker session ended at is required"),
    timestampRule "worker session ended at" r.endedAt,
    (r.reason == "", "worker session end reason is required")]

def StopWorkerSessionAndRecoverWorkRequest.validate (r : StopWorkerSessionAndRecoverWorkRequest) :
    Except String Unit :=
  rules [
    (r.workerId == "", "worker id is required"),
    (r.sessionId == "", "worker session id is required"),
    (r.stoppedAt == "", "worker session stopped at is required"),
    timestampRule "worker session stopped at" r.stoppedAt,
    (r.reason == "", "worker session stop reason is required")]

def RecoverExpiredWorkerSessionsRequest.validate (r : RecoverExpiredWorkerSessionsRequest) :
    Except String Unit :=
  rules [
    (r.cutoff == "", "recover expired worker sessions cutoff is required"),
    timestampRule "recover expired worker sessions cutoff" r.cutoff,
    (r.recoveredAt == "", "recover expired worker sessions recovered at is required"),
    timestampRule "recover expired worker sessions recovered at" r.recoveredAt,
    (r.reason == "", "recover expired worker sessions reason is required")]

/-- The rules on the executor of a claim. -/
def ClaimWorkRequest.executorRules (r : ClaimWorkRequest) : List (Bool × String) :=
  match r.executorType with
  | .worker => [
      (r.workerId == "", "claim worker id is required for worker executor"),
      (r.workerSessionId == "", "claim worker session id is required for worker executor")]
  | .controller => [
      (r.workerId != "", "claim worker id must be empty for controller executor"),
      (r.workerSessionId != "", "claim worker session id must be empty for controller executor")]
  | .other text => [(true, "unsupported claim executor type: " ++ text)]

def ClaimWorkRequest.validate (r : ClaimWorkRequest) : Except String Unit :=
  rules ((r.attemptId == "", "claim attempt id is required") :: r.executorRules ++ [
    (r.startedAt == "", "claim started at is required"),
    timestampRule "claim started at" r.startedAt,
    (r.liveSessionCutoff != "" && !validTimestamp r.liveSessionCutoff,
      "claim live session cutoff must be RFC3339/RFC3339Nano")])

def CompleteAttemptRequest.validate (r : CompleteAttemptRequest) : Except String Unit :=
  rules [
    (r.attemptId == "", "complete attempt id is required"),
    ((r.workerId == "") != (r.workerSessionId == ""),
      "complete worker id and worker session id must be provided together"),
    (r.liveSessionCutoff != "" && !validTimestamp r.liveSessionCutoff,
      "complete live session cutoff must be RFC3339/RFC3339Nano"),
    (r.outputJson == "", "complete output json is required"),
    (!jsonValid r.outputJson, "complete output json must be valid JSON"),
    (r.outputJsonSha256 == "", "complete output json sha256 is required"),
    (r.preStateSha256 == "", "complete pre state sha256 is required"),
    (r.postStateSha256 == "", "complete post state sha256 is required"),
    (r.completedAt == "", "complete completed at is required")]

def FailAttemptRequest.validate (r : FailAttemptRequest) : Except String Unit :=
  rules [
    (r.attemptId == "", "fail attempt id is required"),
    ((r.workerId == "") != (r.workerSessionId == ""),
      "fail worker id and worker session id must be provided together"),
    (r.liveSessionCutoff != "" && !validTimestamp r.liveSessionCutoff,
      "fail live session cutoff must be RFC3339/RFC3339Nano"),
    (r.error == "", "fail error is required"),
    (r.failedAt == "", "fail failed at is required")]

/-- A valid claim is a worker's, with worker and session, or the controller's, with neither. -/
theorem ClaimWorkRequest.validate_executor {r : ClaimWorkRequest} (h : r.validate = .ok ()) :
    (r.executorType = .worker ∧ r.workerId ≠ "" ∧ r.workerSessionId ≠ "") ∨
      (r.executorType = .controller ∧ r.workerId = "" ∧ r.workerSessionId = "") := by
  have hrules : ∀ rule ∈ r.executorRules, rule.1 = false := fun rule hrule =>
    rules_ok.1 h rule (by simp [hrule])
  unfold ClaimWorkRequest.executorRules at hrules
  cases hexecutor : r.executorType with
  | worker => simpa [hexecutor] using hrules
  | controller => simpa [hexecutor] using hrules
  | other text => simp [hexecutor] at hrules

/-- Validate a request before the transaction begins. -/
def validated (x : Except String Unit) : StoreTx Unit :=
  Tx.ofExcept (match x with | .ok () => .ok () | .error e => .error (.message e))

@[simp] theorem validated_ok {x : Except String Unit} {db db' : Store} :
    validated x db = .ok (u, db') ↔ x = .ok () ∧ db = db' := by
  cases x <;> simp [validated]

theorem validated_bind {x : Except String Unit} {f : Unit → StoreTx α} {db db' : Store} {a : α} :
    (validated x >>= f) db = .ok (a, db') ↔ x = .ok () ∧ f () db = .ok (a, db') := by
  simp [Tx.bind_ok, and_assoc, Unique.exists_iff]

/-- A statement and what comes after it. -/
theorem writeBack_bind {τ : Type} {fk : Bool} {parents : Store → Bool} {put : Store → τ → Store}
    {x : Store → Except Violation τ} {err : Violation → StoreError} {f : Unit → StoreTx α} {db db' : Store} {a : α} :
    (Tx.exec (fun db => writeBack fk (parents db) (put db) (x db)) err >>= f) db = .ok (a, db') ↔
      ∃ t, x db = .ok t ∧ (fk = true → parents db = true) ∧ f () (put db t) = .ok (a, db') := by
  simp [Tx.bind_ok, writeBack_ok, Unique.exists_iff, and_assoc]

end GoEtl.Persistence
