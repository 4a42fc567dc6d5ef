import Mathlib.Data.List.Sort
import Mathlib.Data.String.Basic
import GoEtl.Persistence.Validation

/-!
# Projects, workflows, runs and their plans

The store's operations on what is submitted: projects, workflows, runs, the stage plan of a
run, its dependency steps, the memberships of its work items in them, and the outputs of its
steps. None of them touches a work item's placement (queued, running, finished) or a worker
session; `Persistence.Operations` states that once for all of them.

Most are idempotent inserts: a row with the same key must be the same row. `insertOnce` is
that pattern.
-/

namespace GoEtl.Persistence

open Library Text

/-- Insert a row unless it is there; a different row with its key is an error. -/
def insertOnce {ρ : Type} [DecidableEq ρ] (find : Store → Option ρ) (row : ρ) (differs : String)
    (insert : StoreTx Unit) : StoreTx Unit := do
  match ← Tx.read find with
  | some existing => Tx.failIf (existing != row) (.message differs)
  | none => insert

/-- What a successful `insertOnce` did: nothing, or the insert. -/
theorem insertOnce_ok {ρ : Type} [DecidableEq ρ] {find : Store → Option ρ} {row : ρ}
    {differs : String} {insert : StoreTx Unit} {db db' : Store} {u : Unit}
    (h : insertOnce find row differs insert db = .ok (u, db')) :
    (find db = some row ∧ db' = db) ∨ (find db = none ∧ insert db = .ok ((), db')) := by
  obtain ⟨found, rfl, h⟩ := Tx.read_bind.1 h
  cases hfound : find db with
  | some existing =>
    rw [hfound] at h
    obtain ⟨hsame, rfl⟩ := Tx.failIf_ok.1 h
    rw [show existing = row by simpa using hsame]
    exact .inl ⟨rfl, rfl⟩
  | none =>
    rw [hfound] at h
    exact .inr ⟨rfl, h⟩

section

-- Whether the transaction's connection enforces foreign keys.
variable (fk : Bool)

/-- `UpsertProject`. -/
def upsertProject (project : ProjectRecord) : StoreTx Unit := do
  validated project.validate
  insertOnce (·.projects.lookup (·.id == project.id)) project
    ("project " ++ project.id ++ " already exists with different values")
    (Tx.exec (fun db => writeBack fk true ({ db with projects := · }) (db.projects.insert project))
      (.sql ("insert project " ++ project.id)))

/-- `DeleteProjectIfUnused`: whether a project was deleted. -/
def deleteProjectIfUnused (projectId : String) : StoreTx Bool := do
  Tx.failIf (projectId == "") (.message "project id is required")
  let workflowCount ← Tx.read (·.workflows.count (·.projectId == projectId))
  if workflowCount ≠ 0 then pure false
  else do
    let deleted ← Tx.read (·.projects.any (·.id == projectId))
    Tx.exec
      (fun db => writeBack fk (!db.workflowInstances.any (·.projectId == projectId))
        ({ db with projects := · }) (.ok (db.projects.delete (·.id == projectId))))
      (.sql ("delete project " ++ projectId))
    pure deleted

/-- `UpsertWorkflow`. -/
def upsertWorkflow (workflow : WorkflowRecord) : StoreTx Unit := do
  validated workflow.validate
  insertOnce (·.workflows.lookup (·.id == workflow.id)) workflow
    ("workflow " ++ workflow.id ++ " already exists with different values")
    (Tx.exec
      (fun db => writeBack fk (db.projects.any (·.id == workflow.projectId))
        ({ db with workflows := · }) (db.workflows.insert workflow))
      (.sql ("insert workflow " ++ workflow.id)))

/-- `DeleteWorkflowIfUnused`: whether a workflow was deleted. -/
def deleteWorkflowIfUnused (workflowId : String) : StoreTx Bool := do
  Tx.failIf (workflowId == "") (.message "workflow id is required")
  let instanceCount ← Tx.read (·.workflowInstances.count (·.workflowId == workflowId))
  if instanceCount ≠ 0 then pure false
  else do
    let deleted ← Tx.read (·.workflows.any (·.id == workflowId))
    Tx.exec
      (fun db => .ok { db with workflows := db.workflows.delete (·.id == workflowId) })
      (.sql ("delete workflow " ++ workflowId))
    pure deleted

/-- `CreateWorkflowRun`. -/
def createWorkflowRun (run : WorkflowRunRecord) : StoreTx Unit := do
  validated run.validate
  insertOnce (·.workflowInstances.lookup (·.id == run.id)) run
    ("workflow run " ++ run.id ++ " already exists with different values")
    (Tx.exec
      (fun db => writeBack fk
        (db.projects.any (·.id == run.projectId) && db.workflows.any (·.id == run.workflowId))
        ({ db with workflowInstances := · }) (db.workflowInstances.insert run))
      (.sql ("insert workflow run " ++ run.id)))

/-- `UpdateWorkflowRunSubmissionContext`. -/
def updateWorkflowRunSubmissionContext (runId submissionContextJson : String) : StoreTx Unit := do
  Tx.failIf (runId == "") (.message "run id is required")
  Tx.failIf (!jsonValid submissionContextJson)
    (.message ("run " ++ runId ++ " submission context json must be valid"))
  let updated ← Tx.read (·.workflowInstances.any (·.id == runId))
  Tx.exec
    (fun db => writeBack false true ({ db with workflowInstances := · })
      (db.workflowInstances.update (·.id == runId)
        ({ · with submissionContextJson := submissionContextJson })))
    (.sql ("update workflow run " ++ runId ++ " submission context"))
  Tx.failIf (!updated) (.message ("workflow run " ++ runId ++ " not found"))

/-- `listStagesForRun`: the stage rows of a run in order. -/
def listStagesForRun (db : Store) (runId : String) : List WorkflowStageRecord :=
  (db.workflowStages.rows.filter (·.runId == runId)).insertionSort (·.stageIndex ≤ ·.stageIndex)

/-- The checks of `InsertStagePlan` on the stages it is given, from an index on. -/
def validateStagePlanFrom (runId : String) (index : ℕ) : List WorkflowStageRecord → Except String Unit
  | [] => .ok ()
  | stage :: stages => do
    wrapError ("stage " ++ toString index) stage.validate
    if stage.runId ≠ runId then
      .error ("stage " ++ toString index ++ " run id " ++ stage.runId ++ " does not match " ++ runId)
    else validateStagePlanFrom runId (index + 1) stages

/-- `InsertStagePlan`. -/
def insertStagePlan (runId : String) (stages : List WorkflowStageRecord) : StoreTx Unit := do
  Tx.failIf (runId == "") (.message "run id is required")
  Tx.failIf stages.isEmpty (.message "stage plan is required")
  validated (validateStagePlanFrom runId 0 stages)
  let existing ← Tx.read (listStagesForRun · runId)
  if existing ≠ [] then
    Tx.failIf (existing != stages)
      (.message ("stage plan for run " ++ runId ++ " already exists with different values"))
  else
    stages.forM fun stage =>
      Tx.exec
        (fun db => writeBack fk (db.workflowInstances.any (·.id == stage.runId))
          ({ db with workflowStages := · }) (db.workflowStages.insert stage))
        (.sql ("insert workflow stage " ++ stage.runId ++ "/" ++ toString stage.stageIndex))

/-- The order of dependency steps: by stage, then by step. -/
def WorkflowDependencyStepRecord.before (a b : WorkflowDependencyStepRecord) : Prop :=
  a.stageIndex < b.stageIndex ∨ (a.stageIndex = b.stageIndex ∧ a.stepIndex ≤ b.stepIndex)

instance : DecidableRel WorkflowDependencyStepRecord.before := fun _ _ =>
  inferInstanceAs (Decidable (_ ∨ _))

/-- `ListWorkflowDependencySteps`. -/
def listWorkflowDependencySteps (db : Store) (runId : String) : List WorkflowDependencyStepRecord :=
  (db.dependencySteps.rows.filter (·.runId == runId)).insertionSort (·.before ·)

/-- `InsertWorkflowDependencySteps`. -/
def insertWorkflowDependencySteps (steps : List WorkflowDependencyStepRecord) : StoreTx Unit := do
  validated (validateWorkflowDependencySteps steps)
  let steps := steps.insertionSort (·.before ·)
  let runId := (steps.head?.map (·.runId)).getD ""
  let existing ← Tx.read (listWorkflowDependencySteps · runId)
  if existing ≠ [] then
    Tx.failIf (existing != steps)
      (.message ("dependency steps for run " ++ runId ++ " already exists with different values"))
  else
    steps.forM fun step =>
      Tx.exec
        (fun db => writeBack fk (db.workflowInstances.any (·.id == step.runId))
          ({ db with dependencySteps := · }) (db.dependencySteps.insert step))
        (.sql ("insert workflow dependency step " ++ step.runId ++ "/" ++ toString step.stageIndex ++
          "/" ++ toString step.stepIndex))

/-- The step a membership or an output belongs to exists. -/
def hasDependencyStep (db : Store) (runId : String) (stepIndex : ℤ) : Bool :=
  db.dependencySteps.any fun s => s.runId == runId && s.stepIndex == stepIndex

/-- `InsertWorkflowDependencyWorkItemMembership`. -/
def insertWorkflowDependencyWorkItemMembership (items : List WorkflowDependencyWorkItemRecord) :
    StoreTx Unit := do
  validated (validateWorkflowDependencyWorkItemRecords items)
  items.forM fun item =>
    insertOnce
      (·.dependencyWorkItems.lookup fun r => r.runId == item.runId && r.workItemId == item.workItemId)
      item
      ("dependency work item membership " ++ item.workItemId ++ " already exists with different values")
      (Tx.exec
        (fun db => writeBack fk (hasDependencyStep db item.runId item.stepIndex)
          ({ db with dependencyWorkItems := · }) (db.dependencyWorkItems.insert item))
        (.sql ("insert dependency work item membership " ++ item.workItemId ++ " for step " ++
          item.runId ++ "/" ++ toString item.stepIndex)))

/-- `UpsertWorkflowStepOutputFact`: a fact that exists keeps its creation time. -/
def upsertWorkflowStepOutputFact (fact : WorkflowStepOutputFactRecord) : StoreTx Unit := do
  validated fact.validate
  Tx.exec
    (fun db =>
      let same := fun r : WorkflowStepOutputFactRecord =>
        r.runId == fact.runId && r.stepIndex == fact.stepIndex
      writeBack fk (db.stepOutputFacts.any same || hasDependencyStep db fact.runId fact.stepIndex)
        ({ db with stepOutputFacts := · })
        (if db.stepOutputFacts.any same then
          db.stepOutputFacts.update same fun r => { fact with createdAt := r.createdAt }
        else db.stepOutputFacts.insert fact))
    (.sql ("upsert workflow step output fact " ++ fact.runId ++ "/" ++ toString fact.stepIndex))

end

end GoEtl.Persistence
