import GoEtl.Controller.DependencyPlan
import GoEtl.Workflow.Stages

/-!
# Compiled stages and their records

`internal/workflow/compile_stage.go` and `cmd/controller/workflow_stage_queue.go`: how a stage is compiled
to work items, the rows they are stored as, which of them go into the queue at once, and which become
members of their step.

## What is a parameter

What the controller computes outside the store and without regard to what other handlers do is a
parameter, `Runtime`: the JSON codecs of the payloads and of a run's submission context, the canonical
form of outputs and their aggregation, the sources a run was admitted with and the compilation of a
step from them. Results hold for every runtime; those that need a codec to read back what it wrote
say so (`Runtime.Lawful`).
-/

namespace GoEtl.Controller

open Persistence Text Workflow

/-- `WorkItemType`. -/
inductive WorkItemType where
  /-- The text `asset.materialize`. -/
  | assetMaterialize
  /-- Any other text. -/
  | other (text : String)
  deriving DecidableEq, Repr

/-- `WorkItem`: the fields that the controller looks at, and the text of all others. -/
structure WorkItem where
  id : String
  type : WorkItemType
  stepDefinitionId : String
  dependsOn : List String
  body : String
  deriving DecidableEq, Repr

/-- `CompiledWorkItem`: a work item and its resource constraints. -/
structure CompiledWorkItem where
  workItem : WorkItem
  resourceConstraints : List WorkItemResourceConstraintRecord
  deriving DecidableEq

/-- `CompileStageWorkItem`. -/
structure CompileStageWorkItem extends CompiledWorkItem where
  (stageIndex stepIndex : ℤ)
  stepId : String
  deriving DecidableEq

/-- `CompileStageResult`. -/
structure CompileStageResult where
  workflowId : String
  stageIndex : ℤ
  workItems : List CompileStageWorkItem
  deriving DecidableEq

/-- What the fields of a payload that the controller fills in are made from. -/
structure Provenance where
  (runId workflowId firstWorkflowId stepInstanceId codeVersion : String)
  deriving DecidableEq, Repr

/-- What the controller computes outside the store. -/
structure Runtime where
  /-- The text of a store error. -/
  errorText : StoreError → String
  /-- `json.Unmarshal` of a work item. -/
  decodeWorkItem : String → Except String WorkItem
  /-- `json.Marshal` of a work item. -/
  encodeWorkItem : WorkItem → Except String String
  /-- The hash of `canonicalSourceDocument`. -/
  canonicalHash : String → Except String String
  /-- The metadata and the execution envelope of a work item, as the text of its other fields. -/
  envelope : Provenance → CompileStageWorkItem → Except String String
  /-- `json.Unmarshal` of a submission context: its dependency state. -/
  decodeDependencyState : String → Except String (Option DependencyPlan)
  /-- `json.Marshal` of a submission context with this dependency state. -/
  encodeDependencyState : String → DependencyPlan → Except String String
  /-- `resolvedOutputFromJSON` and `canonicalOutputJSONFromResolved`: the canonical text and its hash. -/
  canonicalOutput : String → Except String (String × String)
  /-- The document of `canonicalJSONTextAndHash`, with the name of its field: the canonical text and its hash. -/
  canonicalJson : String → String → Except String (String × String)
  /-- `validateArtifactManifestOutputJSON`. -/
  validateArtifactManifest : String → Except String Unit
  /-- `fp.ValidateSHA256Hex`. -/
  validateSha256Hex : String → Except String Unit
  /-- `aggregateStepOutputJSON`: the output of a step and its hash. -/
  aggregateStepOutput : DependencyStep → Except String (String × String)
  /-- The workflow of the sources that a run was admitted with. -/
  admittedWorkflow : WorkflowRunRecord → Except String WorkflowDefinition
  /-- `controllerCodeVersion`, with the outputs of the earlier steps in scope. -/
  codeVersion : WorkflowDefinition → List String → Except String String
  /-- `CompileStepItems`, with the outputs of the earlier steps in scope. -/
  compileStepItems : WorkflowDefinition → List String → StageStep → Except String (List CompiledWorkItem)
  /-- `ValidateExplicitAssetMaterializeWorkItems`. -/
  validateMaterializeItems : CompileStageResult → Except String Unit
  /-- `prepareCompiledWorkflowForAdmission`. -/
  prepareForAdmission : WorkflowRunRecord → List CompiledWorkItem → Except String (List CompiledWorkItem)
  /-- `time.Parse(time.RFC3339, …)` and the text of the time in UTC, to the second. -/
  toSecond : String → Option String

/-- The codecs read back what they wrote, and a document has a text. -/
structure Runtime.Lawful (rt : Runtime) : Prop where
  /-- A payload. -/
  workItem : ∀ item text, rt.encodeWorkItem item = .ok text → rt.decodeWorkItem text = .ok item
  /-- A dependency state. -/
  dependencyState : ∀ context plan text, rt.encodeDependencyState context plan = .ok text →
    rt.decodeDependencyState text = .ok (some plan)
  /-- An output. -/
  output : ∀ text canonical hash, rt.canonicalOutput text = .ok (canonical, hash) → canonical ≠ ""

/-! ### Compiling a stage -/

/-- `seenWorkItems`: no work item id comes twice in a stage. -/
def addSeenWorkItems (stageIndex : ℤ) (seen : List String) : List CompiledWorkItem → Except String (List String)
  | [] => .ok seen
  | item :: items => do
    rules [(seen.contains item.workItem.id, "duplicate generated work-item id in stage " ++
      toString stageIndex ++ ": " ++ item.workItem.id)]
    addSeenWorkItems stageIndex (item.workItem.id :: seen) items

/-- The loop of `CompileWorkflowStage` over the steps of the stage. -/
def compileSteps (rt : Runtime) (workflow : WorkflowDefinition) (outputs : List String) (stageIndex : ℤ)
    (seen : List String) : List StageStep → Except String (List CompileStageWorkItem)
  | [] => .ok []
  | step :: steps => do
    let items ← wrapError ("compile workflow stage " ++ toString stageIndex ++ " step " ++
      toString step.stepIndex ++ " (" ++ step.stepId ++ ")") (rt.compileStepItems workflow outputs step)
    let seen ← addSeenWorkItems stageIndex seen items
    let rest ← compileSteps rt workflow outputs stageIndex seen steps
    pure (items.map (fun item => ⟨item, stageIndex, step.stepIndex, step.stepId⟩) ++ rest)

/-- `CompileWorkflowStage`. -/
def compileWorkflowStage (rt : Runtime) (workflow : WorkflowDefinition) (outputs : List String)
    (stages : List Stage) (stageIndex : ℤ) : Except String CompileStageResult := do
  rules [(workflow.id == "", "workflow id is required")]
  match stages.find? (·.index == stageIndex) with
  | none => .error ("invalid workflow stage index " ++ toString stageIndex)
  | some stage => do
    let items ← compileSteps rt workflow outputs stageIndex [] stage.steps
    let result : CompileStageResult := ⟨workflow.id, stageIndex, items⟩
    rt.validateMaterializeItems result
    pure result

/-- A compiled work item with what admission made of it. -/
def CompileStageWorkItem.prepared (item : CompileStageWorkItem) (admitted : CompiledWorkItem) :
    CompileStageWorkItem :=
  ⟨admitted, item.stageIndex, item.stepIndex, item.stepId⟩

/-- `prepareCompiledWorkflowForAdmission` on a compiled stage. -/
def admitStage (rt : Runtime) (run : WorkflowRunRecord) (result : CompileStageResult) :
    Except String CompileStageResult := do
  let admitted ← rt.prepareForAdmission run (result.workItems.map (·.toCompiledWorkItem))
  rules [(result.workItems.length != admitted.length, "compile result mismatch: expected " ++
    toString result.workItems.length ++ " stage items, got " ++ toString admitted.length)]
  pure { result with workItems := result.workItems.zipWith CompileStageWorkItem.prepared admitted }

/-! ### Records -/

/-- `compiledStageWorkItemMembership`. -/
structure StageMembership where
  (stageIndex stepIndex : ℤ)
  workItemId : String
  workItemIndex : ℤ
  deriving DecidableEq, Repr

/-- The records of compiled stages. -/
structure StageRecords where
  items : List WorkItemRecord
  queued : List QueuedWorkRecord
  memberships : List StageMembership
  resourceConstraints : List WorkItemResourceConstraintRecord

/-- A work item of a compiled stage on its way to the store. -/
structure PreparedItem where
  record : WorkItemRecord
  payload : WorkItem
  stepIndex : ℤ
  resourceConstraints : List WorkItemResourceConstraintRecord

/-- The work item is materialized by the controller's own rules and gets no membership. -/
def PreparedItem.membership (item : PreparedItem) : Option StageMembership :=
  if item.payload.type = .assetMaterialize then none
  else some ⟨item.record.stageIndex, item.stepIndex, item.record.id, item.record.workItemIndex⟩

/-- `WorkItemResourceConstraint.Validate`. -/
def validateConstraint (c : WorkItemResourceConstraintRecord) : Except String Unit :=
  rules [
    (isBlank c.workItemId, "work item id is required"),
    (decide (c.constraintIndex < 0), "constraint index must be non-negative"),
    (isBlank c.resourceKey, "resource key is required"),
    (decide (c.requestedUnits ≤ 0), "requested units must be greater than 0"),
    (!c.operator.isSupported, "unsupported resource constraint operator " ++ (operatorText c.operator).quote),
    (decide (c.targetUnits < 0), "target units must be non-negative"),
    (isBlank c.createdAt, "created at is required")]

/-- The id a dependency has in the store. -/
def persistedDependencyId (runId dependencyId : String) : String :=
  if dependencyId ≠ "" ∧ ¬ (runId ++ ":").isPrefixOf dependencyId then runId ++ ":" ++ dependencyId
  else dependencyId

section

variable (rt : Runtime)

/-- One round of the first loop of `persistenceRecordsFromCompiledStageResults`. -/
def prepareItem (origin : Provenance) (timestamp : String) (index : ℕ) (item : CompileStageWorkItem) :
    Except String PreparedItem := do
  let body ← wrapError ("build execution envelope for work item " ++ item.workItem.id)
    (rt.envelope origin item)
  let payload : WorkItem :=
    { item.workItem with
      stepDefinitionId := item.stepId, body := body
      dependsOn := item.workItem.dependsOn.map (persistedDependencyId origin.runId) }
  let text ← wrapError "encode workflow work item" (rt.encodeWorkItem payload)
  let hash ← wrapError "hash workflow work item" (rt.canonicalHash text)
  let id := origin.runId ++ ":" ++ payload.id
  let constraints := item.resourceConstraints.map ({ · with workItemId := id, createdAt := timestamp })
  constraints.forM fun c =>
    wrapError ("validate resource constraint for work item " ++ id) (validateConstraint c)
  pure ⟨⟨id, origin.runId, item.stageIndex, index, text, hash, timestamp⟩, payload, item.stepIndex, constraints⟩

/-- The first loop: the work items of a stage are numbered in order. -/
def prepareItems (origin : CompileStageWorkItem → Provenance) (timestamp : String)
    (before : List CompileStageWorkItem) : List CompileStageWorkItem → Except String (List PreparedItem)
  | [] => .ok []
  | item :: rest => do
    let index := before.countP (·.stageIndex == item.stageIndex)
    let prepared ← prepareItem rt (origin item) timestamp index item
    let others ← prepareItems origin timestamp (before ++ [item]) rest
    pure (prepared :: others)

/-- `hasCurrentStageDependency`. -/
def hasCurrentStageDependency (dependsOn : List String) (prepared : List PreparedItem) : Bool :=
  dependsOn.any fun dependencyId => prepared.any (·.record.id == dependencyId)

/-- `payloadsByPersistedID` and `membershipsByPersistedID`: of several items with an id, the last one. -/
def preparedById (prepared : List PreparedItem) (id : String) : Option PreparedItem :=
  prepared.reverse.find? (·.record.id == id)

/-- The second loop: what is queued at once. -/
def isQueuedAtOnce (prepared : List PreparedItem) (item : PreparedItem) : Bool :=
  match preparedById prepared item.record.id with
  | some last => !hasCurrentStageDependency last.payload.dependsOn prepared
  | none => true

/-- The provenance of an item: the step instance is numbered by the first item of its step. -/
def provenance (runId workflowId codeVersion : String) (items : List CompileStageWorkItem)
    (item : CompileStageWorkItem) : Provenance :=
  let first := ((items.find? (·.stepId == item.stepId)).getD item).stepIndex
  ⟨runId, workflowId, workflowId, runId ++ ":step:" ++ toString first, codeVersion⟩

/-- `persistenceRecordsFromCompiledStageResults`, of the one stage that its callers pass. -/
def persistenceRecordsFromCompiledStageResults (runId : String) (result : CompileStageResult)
    (codeVersion timestamp : String) : Except String StageRecords := do
  let prepared ← prepareItems rt (provenance runId result.workflowId codeVersion result.workItems) timestamp []
    result.workItems
  let atOnce := prepared.filter (isQueuedAtOnce prepared)
  pure {
    items := prepared.map (·.record)
    queued := atOnce.map fun item => ⟨item.record, timestamp⟩
    memberships := atOnce.filterMap fun item => (preparedById prepared item.record.id).bind (·.membership)
    resourceConstraints := prepared.flatMap (·.resourceConstraints) }

end

/-! ### The outputs a stage is compiled from -/

/-- `validateOutputJSONSize`. -/
def validateOutputJsonSize (name outputJson : String) (limit : ℕ) : Except String Unit :=
  rules [
    (outputJson == "", name ++ " is required"),
    (decide (limit < outputJson.utf8ByteSize), name ++ " is " ++ toString outputJson.utf8ByteSize ++
      " bytes, limit is " ++ toString limit ++
      " bytes; store bulk data externally and return a small artifact reference")]

/-- `validateCompletedWorkOutputJSONSize`. -/
def validateCompletedWorkOutputJsonSize (outputJson : String) : Except String Unit :=
  validateOutputJsonSize "output_json" outputJson (16 * 1024)

/-- `validateLogicalStepOutputJSONSize`. -/
def validateLogicalStepOutputJsonSize (outputJson : String) : Except String Unit :=
  validateOutputJsonSize "logical step output_json" outputJson (256 * 1024)

/-- `flattenDependencySteps` and `sortStepsByIndex`: by stage, then by step. -/
def sortedSteps (plan : DependencyPlan) : List DependencyStep :=
  plan.steps.insertionSort fun a b =>
    a.stageIndex < b.stageIndex ∨ (a.stageIndex = b.stageIndex ∧ a.stepIndex ≤ b.stepIndex)

/-- One round of the loop of `workflowStepScope`: the output of a step that is needed. -/
def stepScopeOutput (rt : Runtime) (step : DependencyStep) : Except String String := do
  let name := "workflow step " ++ toString step.stepIndex
  rules [
    (step.state != .completed, name ++ " is " ++ step.state.text ++ ", want completed"),
    (step.outputJson == "" && step.outputJsonPruned, "workflow.step[" ++ toString step.stepIndex ++
      "] output was pruned before downstream work was materialized"),
    (step.outputJson == "", name ++ " is missing output JSON")]
  wrapError name (validateLogicalStepOutputJsonSize step.outputJson)
  let resolved ← wrapError name (rt.canonicalOutput step.outputJson)
  pure resolved.1

/-- `workflowStepScope`: the outputs of the steps before an index. -/
def workflowStepScope (rt : Runtime) (plan : DependencyPlan) (beforeStepIndex : ℤ) :
    Except String (List String) := do
  rules [(decide (beforeStepIndex < 0), "before step index must be non-negative")]
  ((sortedSteps plan).filter fun step => decide (step.stepIndex < beforeStepIndex)).mapM (stepScopeOutput rt)

end GoEtl.Controller
