import GoEtl.Controller.Handlers
import GoEtl.Controller.RunState

/-!
# Settled runs

The invariant of the controller, of all runs at once: the rows of a run fit together (`Shape`), and
everything that a completion sets off has been done (`Settled`). The stage after a completed stage is
activated, a step whose members have completed has its output, what waited for a completed work item is
queued, and every queued work item has its membership.

While a handler works on a run, parts of that are still to be done. `Pending` says which, and
`Settled rt u p w` is the invariant up to `p`; between handlers nothing is pending. A run that is marked
as failed is left as it is, so that most parts of the invariant are about runs that are not marked.

What is needed of the runs that are submitted is `Admissible`. The parts of the invariant that need the
work items of a step to wait for the same work items carry that condition as `u`.
-/

namespace GoEtl.Controller

open Library Persistence Workflow

/-! ### Work items and their steps -/

section Items

variable (rt : Runtime)

/-- The payload of a work item. -/
def HasPayload (x : WorkItemRecord) (item : WorkItem) : Prop := rt.decodeWorkItem x.workerPayloadJson = .ok item

/-- The work item is not an asset materialization. -/
def Ordinary (x : WorkItemRecord) : Prop := ∃ item, HasPayload rt x item ∧ item.type ≠ .assetMaterialize

/-- The work item was compiled for the step. -/
def ItemOf (s : WorkflowDependencyStepRecord) (x : WorkItemRecord) : Prop :=
  x.runId = s.runId ∧ x.stageIndex = s.stageIndex ∧ ∃ item, HasPayload rt x item ∧ item.stepDefinitionId = s.stepId

/-- What the stages of a run are compiled to. -/
def CompiledFor (run : WorkflowRunRecord) (result : CompileStageResult) : Prop :=
  ∃ workflow, rt.admittedWorkflow run = .ok workflow ∧
    ((∃ outputs stageIndex codeVersion,
        compileAdmitted rt run workflow outputs stageIndex = .ok (result, codeVersion)) ∨
      ∃ stages, compileInitialStage rt run workflow = .ok (some (stages, result)))

/-- The records of a stage that was compiled for a run. -/
def RecordsFor (run : WorkflowRunRecord) (records : StageRecords) : Prop :=
  ∃ result codeVersion timestamp, CompiledFor rt run result ∧
    persistenceRecordsFromCompiledStageResults rt run.id result codeVersion timestamp = .ok records

/-- A run that may be submitted. -/
structure Admissible (u : Prop) (run : WorkflowRunRecord) : Prop where
  /-- It comes without a stored plan. -/
  fresh : rt.decodeDependencyState run.submissionContextJson = .ok none
  /-- With one work item of a step all of them are materializations. -/
  kind : ∀ result, CompiledFor rt run result → ∀ i ∈ result.workItems, ∀ j ∈ result.workItems,
    i.stepId = j.stepId → i.workItem.type = .assetMaterialize → j.workItem.type = .assetMaterialize
  /-- A materialization waits for nothing. -/
  materialize : ∀ result, CompiledFor rt run result → ∀ i ∈ result.workItems,
    i.workItem.type = .assetMaterialize → i.workItem.dependsOn = []
  /-- A stage with work items starts with a member. -/
  visible : ∀ result, CompiledFor rt run result → ∀ codeVersion timestamp records,
    persistenceRecordsFromCompiledStageResults rt run.id result codeVersion timestamp = .ok records →
      records.items ≠ [] → records.memberships ≠ []
  /-- The work items of a step wait for the same work items. -/
  dependsOn : u → ∀ result, CompiledFor rt run result → ∀ i ∈ result.workItems, ∀ j ∈ result.workItems,
    i.stepId = j.stepId → i.workItem.dependsOn = j.workItem.dependsOn

end Items

/-- The work item is a member of a step. -/
def IsMember (db : Store) (x : WorkItemRecord) : Prop :=
  ∃ m ∈ db.dependencyWorkItems, m.runId = x.runId ∧ m.workItemId = x.id

/-- A dependency step as the stages of the workflow have it. -/
def stageStep (s : WorkflowDependencyStepRecord) : StageStep := ⟨s.stageIndex, s.stepIndex, s.stepId⟩

/-- The steps of the run are those of its workflow. -/
def PlanOf (rt : Runtime) (db : Store) (run : WorkflowRunRecord) : Prop :=
  ∃ workflow stages, rt.admittedWorkflow run = .ok workflow ∧ normalizeStages workflow = .ok stages ∧
    ∀ t, t ∈ stageSteps stages ↔ ∃ s ∈ db.dependencySteps, s.runId = run.id ∧ stageStep s = t

/-- The members of the step have all completed. -/
def MembersDone (db : Store) (s : WorkflowDependencyStepRecord) : Prop :=
  ∀ m ∈ db.dependencyWorkItems, MemberOf s m → IsCompleted db m.workItemId

/-! ### The invariant -/

/-- **The rows of runs fit together.** -/
structure Shape (rt : Runtime) (u : Prop) (w : World) : Prop where
  rooted : Rooted w.db
  placement : ∀ id, InOnePlace w.db id
  outcome : OneOutcome w.db
  admitted : ∀ r ∈ w.db.workflowInstances, ¬ Marked w.db r.id rt → Admissible rt u r
  /-- Steps have a run. -/
  planned : ∀ s ∈ w.db.dependencySteps, ∃ r ∈ w.db.workflowInstances, r.id = s.runId
  workflow : ∀ r ∈ w.db.workflowInstances, ¬ Marked w.db r.id rt → (∃ s ∈ w.db.dependencySteps, s.runId = r.id) →
    PlanOf rt w.db r
  /-- Work items, members and outputs have a step, and what is queued is a work item. -/
  item : ∀ x ∈ w.db.workItems, ∃ s ∈ w.db.dependencySteps, ItemOf rt s x
  queue : ∀ id, IsQueued w.db id → ∃ x ∈ w.db.workItems, x.id = id
  member : ∀ m ∈ w.db.dependencyWorkItems, ∃ s ∈ w.db.dependencySteps, MemberOf s m ∧
    ∃ x ∈ w.db.workItems, x.id = m.workItemId ∧ ItemOf rt s x ∧ Ordinary rt x
  fact : ∀ runId i, HasFact w.db runId i → ∃ s ∈ w.db.dependencySteps, s.runId = runId ∧ s.stepIndex = i
  /-- The work items of a step are of one kind, and materializations wait for nothing. -/
  kind : ∀ s ∈ w.db.dependencySteps, ∀ x ∈ w.db.workItems, ∀ y ∈ w.db.workItems, ItemOf rt s x → ItemOf rt s y →
    Ordinary rt x → Ordinary rt y
  materialize : ∀ x ∈ w.db.workItems, ∀ item, HasPayload rt x item → item.type = .assetMaterialize →
    item.dependsOn = []
  dependsOn : u → ∀ s ∈ w.db.dependencySteps, ∀ x ∈ w.db.workItems, ∀ y ∈ w.db.workItems, ItemOf rt s x →
    ItemOf rt s y → ∀ item item', HasPayload rt x item → HasPayload rt y item' → item.dependsOn = item'.dependsOn
  /-- A stage after the first has work items only if its activation was begun, and that happens once. -/
  begun : ∀ x ∈ w.db.workItems, x.stageIndex ≠ 0 → (x.runId, x.stageIndex) ∈ w.activations
  nodup : w.activations.Nodup
  /-- Before anything is recorded of a stage, the steps of the earlier stages have their outputs. -/
  before : ∀ runId k, Touched w.db runId k → ∀ s ∈ w.db.dependencySteps, s.runId = runId → s.stageIndex < k →
    HasFact w.db s.runId s.stepIndex ∨ Marked w.db runId rt
  /-- A step has its output only if its work items have completed. -/
  facts : u → ∀ s ∈ w.db.dependencySteps, HasFact w.db s.runId s.stepIndex → ∀ x ∈ w.db.workItems, ItemOf rt s x →
    IsCompleted w.db x.id ∨ Marked w.db s.runId rt
  /-- A stage has work items only if those of the earlier stages have completed. -/
  barrier : u → ∀ x ∈ w.db.workItems, ∀ y ∈ w.db.workItems, y.runId = x.runId → y.stageIndex < x.stageIndex →
    IsCompleted w.db y.id

/-- What a handler has still to do. -/
@[ext] structure Pending where
  /-- Completed stages that the next stage is still to follow. -/
  follow : Set (String × ℤ)
  /-- Stages whose work items and members are still to be recorded. -/
  starting : Set (String × ℤ)
  /-- Steps whose output is still to be recorded. -/
  publish : Set (String × ℤ)
  /-- Work items of runs that are queued and whose membership is still to be recorded. -/
  queued : Set (String × String)
  /-- Completed work items of runs whose dependents are still to be queued. -/
  release : Set (String × String)

namespace Pending

/-- Nothing is pending. -/
def none : Pending := ⟨∅, ∅, ∅, ∅, ∅⟩

/-- Anything may be pending of this run. -/
def all (runId : String) : Pending := ⟨{a | a.1 = runId}, {a | a.1 = runId}, {a | a.1 = runId}, {a | a.1 = runId}, {a | a.1 = runId}⟩

instance : LE Pending where
  le p q := p.follow ⊆ q.follow ∧ p.starting ⊆ q.starting ∧ p.publish ⊆ q.publish ∧ p.queued ⊆ q.queued ∧
    p.release ⊆ q.release

/-- What is pending after work items were completed: what their members and dependents need. -/
def completing (p : Pending) (db : Store) (done : Set String) : Pending :=
  { p with
    follow := p.follow ∪ {a | ∃ m ∈ db.dependencyWorkItems, m.workItemId ∈ done ∧ a = (m.runId, m.stageIndex)}
    publish := p.publish ∪ {a | ∃ m ∈ db.dependencyWorkItems, m.workItemId ∈ done ∧ a = (m.runId, m.stepIndex)}
    release := p.release ∪ {a | a.2 ∈ done} }

theorem none_le (p : Pending) : none ≤ p :=
  ⟨Set.empty_subset _, Set.empty_subset _, Set.empty_subset _, Set.empty_subset _, Set.empty_subset _⟩

theorem completing_empty (p : Pending) (db : Store) : p.completing db ∅ = p := by
  simp [completing]

end Pending

/-- **Runs are settled**, up to what is pending. -/
structure Settled (rt : Runtime) (u : Prop) (p : Pending) (w : World) : Prop extends Shape rt u w where
  /-- Something is recorded of every stage whose activation was begun or that has work items. -/
  activated : ∀ a ∈ w.activations, a ∉ p.starting → Touched w.db a.1 a.2 ∨ Marked w.db a.1 rt
  opened : ∀ x ∈ w.db.workItems, (x.runId, x.stageIndex) ∉ p.starting →
    Touched w.db x.runId x.stageIndex ∨ Marked w.db x.runId rt
  /-- What is queued or was attempted is a member. -/
  enrolled : ∀ x ∈ w.db.workItems, Ordinary rt x → IsQueued w.db x.id ∨ IsAttempted w.db x.id →
    (x.runId, x.id) ∉ p.queued → IsMember w.db x ∨ Marked w.db x.runId rt
  /-- Every step of a stage that was started has its output or work items. -/
  filled : ∀ s ∈ w.db.dependencySteps, s.stageIndex = 0 ∨ Touched w.db s.runId s.stageIndex →
    (s.runId, s.stageIndex) ∉ p.starting →
      HasFact w.db s.runId s.stepIndex ∨ (∃ x ∈ w.db.workItems, ItemOf rt s x) ∨ Marked w.db s.runId rt
  /-- The stage after a completed stage is activated. -/
  followed : ∀ runId j, StageDone w.db runId j → HasStage w.db runId (j + 1) → (runId, j) ∉ p.follow →
    Touched w.db runId (j + 1) ∨ Dead w.db runId rt
  /-- The work items of a step become members together. -/
  together : u → ∀ s ∈ w.db.dependencySteps, HasMember w.db s → ∀ y ∈ w.db.workItems, ItemOf rt s y →
    IsMember w.db y ∨ (y.runId, y.id) ∈ p.queued ∨ Marked w.db s.runId rt
  /-- A step whose members have completed has its output. -/
  published : ∀ s ∈ w.db.dependencySteps, HasMember w.db s → MembersDone w.db s → (s.runId, s.stepIndex) ∉ p.publish →
    HasFact w.db s.runId s.stepIndex ∨ Dead w.db s.runId rt
  /-- What waits for nothing more is somewhere. -/
  released : ∀ x ∈ w.db.workItems, ∀ item, HasPayload rt x item →
    (∀ d ∈ item.dependsOn, IsCompleted w.db d ∧ ∃ y ∈ w.db.workItems, y.id = d ∧ y.runId = x.runId) →
      (∀ d ∈ item.dependsOn, (x.runId, d) ∉ p.release) → IsPlaced w.db x.id ∨ Marked w.db x.runId rt

variable {rt : Runtime} {u : Prop} {p q : Pending} {w : World} {db' : Store} {runId : String}

theorem Settled.mono (h : Settled rt u p w) (hpq : p ≤ q) : Settled rt u q w := by
  obtain ⟨hfollow, hstarting, hpublish, hqueued, hrelease⟩ := hpq
  exact { h with
    activated := fun a ha hnot => h.activated a ha (mt (@hstarting _) hnot)
    opened := fun x hx hnot => h.opened x hx (mt (@hstarting _) hnot)
    enrolled := fun x hx ho hq hnot => h.enrolled x hx ho hq (mt (@hqueued _) hnot)
    filled := fun s hs hk hnot => h.filled s hs hk (mt (@hstarting _) hnot)
    followed := fun R j hdone hnext hnot => h.followed R j hdone hnext (mt (@hfollow _) hnot)
    together := fun hu s hs hm y hy hof => (h.together hu s hs hm y hy hof).imp_right (Or.imp_left (@hqueued _))
    published := fun s hs hm hd hnot => h.published s hs hm hd (mt (@hpublish _) hnot)
    released := fun x hx item hp hd hnot =>
      h.released x hx item hp hd fun d hmem => mt (@hrelease _) (hnot d hmem) }

/-- Whatever is pending of a marked run is left. -/
theorem Settled.forget (h : Settled rt u (.all runId) w) (hmarked : Marked w.db runId rt) :
    Settled rt u .none w := by
  have hor : ∀ {R : String} {P : Prop}, (R ≠ runId → P ∨ Marked w.db R rt) → P ∨ Marked w.db R rt := by
    intro R P hP
    by_cases hR : R = runId
    · exact .inr (hR ▸ hmarked)
    · exact hP hR
  have hdead : ∀ {R : String} {P : Prop}, (R ≠ runId → P ∨ Dead w.db R rt) → P ∨ Dead w.db R rt := by
    intro R P hP
    by_cases hR : R = runId
    · exact .inr (.inl (hR ▸ hmarked))
    · exact hP hR
  exact { h with
    activated := fun a ha _ => hor fun hR => h.activated a ha hR
    opened := fun x hx _ => hor fun hR => h.opened x hx hR
    enrolled := fun x hx ho hq _ => hor fun hR => h.enrolled x hx ho hq hR
    filled := fun s hs hk _ => or_assoc.1 (hor fun hR => or_assoc.2 (h.filled s hs hk hR))
    followed := fun R j hdone hnext _ => hdead fun hR => h.followed R j hdone hnext hR
    together := fun hu s hs hm y hy hof => by
      rcases h.together hu s hs hm y hy hof with hy | hy | hy
      · exact .inl hy
      · exact .inr (.inr (hof.1 ▸ (show y.runId = runId from hy) ▸ hmarked))
      · exact .inr (.inr hy)
    published := fun s hs hm hd _ => hdead fun hR => h.published s hs hm hd hR
    released := fun x hx item hp hd _ => hor fun hR => h.released x hx item hp hd fun _ _ => hR }

/-! ### Work is carried on -/

variable {done : Set String}

/-- A database in which work was carried on is the old one in all that is recorded of runs. -/
theorem exists_eq_of_carried {s t : Store} (h : Carried done s t) :
    ∃ t' : Store, t = { t' with
      workflowInstances := s.workflowInstances, dependencySteps := s.dependencySteps,
      dependencyWorkItems := s.dependencyWorkItems, stepOutputFacts := s.stepOutputFacts,
      workItems := s.workItems } := by
  refine ⟨t, ?_⟩
  rw [← h.instances, ← h.steps, ← h.members, ← h.facts, ← h.items]

theorem Dead.carried {s t : Store} (hc : Carried done s t) (h : Dead s runId rt) :
    Dead t runId rt := by
  refine h.imp (fun ⟨r, hr, hmarked⟩ => ⟨r, hc.instances ▸ hr, hmarked⟩) fun ⟨m, hm, hrun, hfailed⟩ => ?_
  exact ⟨m, hc.members ▸ hm, hrun, hc.failed _ hfailed⟩

/-- **Workers, reports and recoveries** leave what a completion makes pending. -/
theorem Settled.carried (h : Settled rt u p w) (hc : Carried done w.db db') :
    Settled rt u (p.completing w.db done) { w with db := db' } := by
  have hdead : ∀ R, Dead w.db R rt → Dead db' R rt := fun R => Dead.carried hc
  obtain ⟨t, rfl⟩ := exists_eq_of_carried hc
  have hmono : ∀ id, IsCompleted w.db id → _ := fun id hid => (hc.completed id).2 (.inl hid)
  exact { h with
    rooted := hc.rooted h.rooted
    placement := hc.placement h.placement
    outcome := hc.outcome h.placement h.outcome
    queue := fun id hid => by
      rcases hc.recorded h.rooted id (.inl hid) with hid | ⟨a, ha, rfl⟩
      · exact h.queue id hid
      · exact h.rooted.item a ha
    facts := fun hu s hs hf x hx hof => (h.facts hu s hs hf x hx hof).imp_left (hmono x.id)
    barrier := fun hu x hx y hy hrun hk => hmono y.id (h.barrier hu x hx y hy hrun hk)
    enrolled := fun x hx ho hq hnot => h.enrolled x hx ho (hc.recorded h.rooted x.id hq) hnot
    followed := fun R j hdone hnext hnot => by
      refine (h.followed R j ⟨hdone.1, fun s hs hsrun hsj => ?_⟩ hnext fun hin => hnot (.inl hin)).imp_right (hdead R)
      refine (hdone.2 s hs hsrun hsj).imp_right fun ⟨hhas, hall⟩ => ⟨hhas, fun m hm hof => ?_⟩
      refine ((hc.completed _).1 (hall m hm hof)).resolve_right fun hin => hnot (.inr ⟨m, hm, hin, ?_⟩)
      rw [hof.1, hof.2.1, hsrun, hsj]
    published := fun s hs hm hdone hnot => by
      refine (h.published s hs hm (fun m hm hof => ?_) fun hin => hnot (.inl hin)).imp_right (hdead _)
      refine ((hc.completed _).1 (hdone m hm hof)).resolve_right fun hin => hnot (.inr ⟨m, hm, hin, ?_⟩)
      rw [hof.1, hof.2.2]
    released := fun x hx item hp hdone hnot => by
      refine (h.released x hx item hp (fun d hd => ?_) fun d hd hin => hnot d hd (.inl hin)).imp_left (hc.placed _)
      refine ⟨((hc.completed d).1 (hdone d hd).1).resolve_right fun hin => hnot d hd (.inr hin), (hdone d hd).2⟩ }

/-- Workers beside a handler leave what is pending. -/
theorem Settled.interference {t : World} (h : Settled rt u p w) (ht : Interference w t) : Settled rt u p t := by
  have hcarried := h.carried ht.worked.carried
  rw [Pending.completing_empty] at hcarried
  obtain ⟨db, activations⟩ := t
  obtain rfl : activations = w.activations := ht.activations
  exact hcarried

/-! ### The steps of a handler -/

/-- **What a handler does in a step when it has its turn.** -/
structure HandlerStep (rt : Runtime) (u : Prop) (w w' : World) : Prop where
  /-- It queues only work items that were never claimed. -/
  enqueued : ∀ id, IsQueued w'.db id → IsQueued w.db id ∨ ¬ IsAttempted w.db id
  /-- It inserts work items only into a stage after all stages that have some, once the earlier steps have their
  outputs and before their own step has, and it inserts all those that were compiled for the stage. -/
  inserted : ∀ x ∈ w'.db.workItems, x ∈ w.db.workItems ∨
    ((∀ y ∈ w.db.workItems, y.runId = x.runId → y.stageIndex < x.stageIndex) ∧
      (∀ s ∈ w.db.dependencySteps, s.runId = x.runId → s.stageIndex < x.stageIndex →
        HasFact w.db s.runId s.stepIndex) ∧
      (∀ s ∈ w'.db.dependencySteps, ItemOf rt s x → ¬ HasFact w'.db s.runId s.stepIndex) ∧
      ∃ run records, run.id = x.runId ∧ RecordsFor rt run records ∧ x ∈ records.items ∧
        (∀ y ∈ records.items, y.runId = x.runId ∧ y.stageIndex = x.stageIndex) ∧
        ∀ y, y ∈ w'.db.workItems ↔ y ∈ w.db.workItems ∨ y ∈ records.items)
  /-- It inserts and queues work items only once those of the earlier stages have completed. -/
  barrier : u → ∀ x ∈ w'.db.workItems, (x ∈ w.db.workItems ∧ (IsQueued w'.db x.id → IsQueued w.db x.id)) ∨
    ∀ y ∈ w'.db.workItems, y.runId = x.runId → y.stageIndex < x.stageIndex → IsCompleted w.db y.id
  /-- It records the output of a step only once the step's work items have completed. -/
  published : u → ∀ s ∈ w'.db.dependencySteps, HasFact w'.db s.runId s.stepIndex →
    HasFact w.db s.runId s.stepIndex ∨ Marked w.db s.runId rt ∨ ∀ x ∈ w'.db.workItems, ItemOf rt s x →
      IsCompleted w.db x.id
  /-- It begins to activate a stage only once, and only of a run that has not failed. -/
  activations : w'.activations = w.activations ∨
    ∃ a, w'.activations = w.activations ++ [a] ∧ a ∉ w.activations ∧ ¬ Dead w.db a.1 rt
  /-- It leaves the work items, the steps of runs, what has completed, and failed runs failed. -/
  items : ∀ x ∈ w.db.workItems, x ∈ w'.db.workItems
  steps : ∀ s ∈ w.db.dependencySteps, s ∈ w'.db.dependencySteps
  completed : ∀ id, IsCompleted w.db id → IsCompleted w'.db id
  dead : ∀ R, Dead w.db R rt → Dead w'.db R rt

/-- A step that leaves the work items and the queue alone, and publishes no output. -/
theorem HandlerStep.of_same {w' : World} (hactivations : w'.activations = w.activations)
    (hitems : w'.db.workItems = w.db.workItems) (hqueued : w'.db.queuedWork = w.db.queuedWork)
    (hfacts : ∀ R i, HasFact w'.db R i → HasFact w.db R i)
    (hsteps : ∀ s ∈ w.db.dependencySteps, s ∈ w'.db.dependencySteps)
    (hcompleted : ∀ id, IsCompleted w.db id → IsCompleted w'.db id) (hdead : ∀ R, Dead w.db R rt → Dead w'.db R rt) :
    HandlerStep rt u w w' where
  enqueued id hid := .inl (by rwa [IsQueued, hqueued] at hid)
  inserted x hx := .inl (hitems ▸ hx)
  barrier _ x hx := .inl ⟨hitems ▸ hx, by rw [IsQueued, hqueued]; exact id⟩
  published _ s _ hf := .inl (hfacts _ _ hf)
  activations := .inl hactivations
  items _ := by rw [hitems]; exact id
  steps := hsteps
  completed := hcompleted
  dead := hdead

theorem HandlerStep.refl (w : World) : HandlerStep rt u w w :=
  .of_same rfl rfl rfl (fun _ _ => id) (fun _ => id) (fun _ => id) fun _ => id

/-! ### A run is marked -/

/-- Another table of runs, in which the marked runs are marked, needs what is said about runs. -/
theorem Settled.withRuns {t : Table Schema.workflowInstances} (h : Settled rt u p w)
    (hmono : ∀ R, Marked w.db R rt → Marked { w.db with workflowInstances := t } R rt)
    (hadmitted : ∀ r ∈ t, ¬Marked { w.db with workflowInstances := t } r.id rt → Admissible rt u r)
    (hplanned : ∀ s ∈ w.db.dependencySteps, ∃ r ∈ t, r.id = s.runId)
    (hworkflow : ∀ r ∈ t, ¬Marked { w.db with workflowInstances := t } r.id rt →
      (∃ s ∈ w.db.dependencySteps, s.runId = r.id) → PlanOf rt w.db r) :
    Settled rt u p { w with db := { w.db with workflowInstances := t } } :=
  have hmono {R} := hmono R
  have hdead : ∀ {R}, Dead w.db R rt → Dead { w.db with workflowInstances := t } R rt := Or.imp_left hmono
  { h with
    rooted := (Move.catalog w.db.projects w.db.workflows t w.db.workflowStages w.db.dependencySteps
      w.db.dependencyWorkItems w.db.stepOutputFacts).rooted h.rooted
    admitted := hadmitted
    planned := hplanned
    workflow := hworkflow
    before := fun R k ht s hs hrun hk => (h.before R k ht s hs hrun hk).imp_right hmono
    facts := fun hu s hs hf x hx hof => (h.facts hu s hs hf x hx hof).imp_right hmono
    activated := fun a ha hnot => (h.activated a ha hnot).imp_right hmono
    opened := fun x hx hnot => (h.opened x hx hnot).imp_right hmono
    enrolled := fun x hx ho hq hnot => (h.enrolled x hx ho hq hnot).imp_right hmono
    filled := fun s hs hk hnot => (h.filled s hs hk hnot).imp_right (Or.imp_right hmono)
    followed := fun R j hdone hnext hnot => (h.followed R j hdone hnext hnot).imp_right hdead
    together := fun hu s hs hm y hy hof => (h.together hu s hs hm y hy hof).imp_right (Or.imp_right hmono)
    published := fun s hs hm hd hnot => (h.published s hs hm hd hnot).imp_right hdead
    released := fun x hx item hp hd hnot => (h.released x hx item hp hd hnot).imp_right hmono }

variable {R : String}

section Mark

variable {json : String} {plan : DependencyPlan} {t : Table Schema.workflowInstances}
  (hupdate : w.db.workflowInstances.update (·.id == runId) ({ · with submissionContextJson := json }) = .ok t)
  (hplan : legacyWorkflowDependencyPlan rt json = some plan) (hfailed : plan.state = .failed)

include hupdate hplan hfailed

theorem marked_of_update (hrun : ∃ r ∈ w.db.workflowInstances, r.id = runId) :
    Marked { w.db with workflowInstances := t } runId rt := by
  obtain ⟨r, hr, hid⟩ := hrun
  refine ⟨_, (Table.mem_update hupdate).2 (.inl ⟨r, hr, by simpa using hid, rfl⟩), hid, plan, hplan, hfailed⟩

theorem marked_update_mono (h : Marked w.db R rt) : Marked { w.db with workflowInstances := t } R rt := by
  obtain ⟨r, hr, rfl, p, hp, hpf⟩ := h
  by_cases hid : r.id = runId
  · rw [hid]
    exact marked_of_update hupdate hplan hfailed ⟨r, hr, hid⟩
  · exact ⟨r, (Table.mem_update hupdate).2 (.inr ⟨hr, by simpa using hid⟩), rfl, p, hp, hpf⟩

/-- A run that is not marked afterwards is the same as before. -/
theorem unmarked_update {r : WorkflowRunRecord} (hr : r ∈ t)
    (h : ¬ Marked { w.db with workflowInstances := t } r.id rt) :
    r ∈ w.db.workflowInstances ∧ ¬ Marked w.db r.id rt := by
  refine ⟨?_, mt (marked_update_mono hupdate hplan hfailed) h⟩
  rcases (Table.mem_update hupdate).1 hr with ⟨old, hold, hid, rfl⟩ | ⟨hr, _⟩
  · have hid : old.id = runId := by simpa using hid
    exact absurd (hid.symm ▸ marked_of_update hupdate hplan hfailed ⟨old, hold, hid⟩) h
  · exact hr

/-- **Marking a run** keeps runs settled. -/
theorem Settled.mark (h : Settled rt u p w) :
    Settled rt u p { w with db := { w.db with workflowInstances := t } } := by
  refine h.withRuns (fun _ => marked_update_mono hupdate hplan hfailed) (fun r hr hnot => ?_) (fun s hs => ?_)
    (fun r hr hnot => ?_)
  · exact (unmarked_update hupdate hplan hfailed hr hnot).elim (h.admitted r)
  · obtain ⟨r, hr, hid⟩ := h.planned s hs
    by_cases hrun : r.id = runId
    · exact ⟨_, (Table.mem_update hupdate).2 (.inl ⟨r, hr, by simpa using hrun, rfl⟩), hid⟩
    · exact ⟨r, (Table.mem_update hupdate).2 (.inr ⟨hr, by simpa using hrun⟩), hid⟩
  · exact (unmarked_update hupdate hplan hfailed hr hnot).elim (h.workflow r)

theorem HandlerStep.mark : HandlerStep rt u w { w with db := { w.db with workflowInstances := t } } :=
  .of_same rfl rfl rfl (fun _ _ => id) (fun _ => id) (fun _ => id) fun _ =>
    Or.imp_left (marked_update_mono hupdate hplan hfailed)

end Mark

/-! ### A stage is touched -/

variable {s : WorkflowDependencyStepRecord}

theorem step_eq {db : Store} {s' : WorkflowDependencyStepRecord} (hs : s ∈ db.dependencySteps)
    (hs' : s' ∈ db.dependencySteps) (hrun : s.runId = s'.runId) (hindex : s.stepIndex = s'.stepIndex) : s = s' :=
  Table.eq_of_clash hs hs' (by simp [Schema.dependencySteps, hrun, hindex])

/-- The step's stage was touched before, is being started, or is one of a marked run. -/
def MayTouch (rt : Runtime) (p : Pending) (w : World) (s : WorkflowDependencyStepRecord) : Prop :=
  Touched w.db s.runId s.stageIndex ∨ Marked w.db s.runId rt ∨
    ((s.runId, s.stageIndex) ∈ p.starting ∧ ∀ r ∈ w.db.dependencySteps, r.runId = s.runId →
      r.stageIndex < s.stageIndex → HasFact w.db r.runId r.stepIndex)

theorem Shape.before_of_mayTouch (h : Shape rt u w) (hmay : MayTouch rt p w s) {r : WorkflowDependencyStepRecord}
    (hr : r ∈ w.db.dependencySteps) (hrun : r.runId = s.runId) (hk : r.stageIndex < s.stageIndex)
    : HasFact w.db r.runId r.stepIndex ∨ Marked w.db s.runId rt := by
  rcases hmay with htouched | hmarked | ⟨_, hbefore⟩
  · exact h.before _ _ htouched r hr hrun hk
  · exact .inr hmarked
  · exact .inl (hbefore r hr hrun hk)

/-! ### An output is recorded -/

variable {k : ℤ}

section Fact

variable {s₀ : WorkflowDependencyStepRecord} {t : Table Schema.stepOutputFacts} (hs₀ : s₀ ∈ w.db.dependencySteps)
  (hhas : ∀ k, t.Has (·.key) k ↔ w.db.stepOutputFacts.Has (·.key) k ∨ (s₀.runId, s₀.stepIndex) = k)

include hs₀ hhas

theorem hasFact_upsert (hs : s ∈ w.db.dependencySteps) :
    HasFact { w.db with stepOutputFacts := t } s.runId s.stepIndex ↔ HasFact w.db s.runId s.stepIndex ∨ s = s₀ := by
  refine (hhas _).trans (or_congr_right ⟨fun heq => ?_, ?_⟩)
  · simp only [Prod.mk.injEq] at heq
    exact step_eq hs hs₀ heq.1.symm heq.2.symm
  · rintro rfl
    rfl

theorem touched_upsert (h : Touched { w.db with stepOutputFacts := t } R k) :
    Touched w.db R k ∨ (s₀.runId = R ∧ s₀.stageIndex = k) := by
  obtain ⟨s, hs, hrun, hk, hfact | hmember⟩ := h
  · rcases (hasFact_upsert hs₀ hhas hs).1 hfact with hfact | rfl
    · exact .inl ⟨s, hs, hrun, hk, .inl hfact⟩
    · exact .inr ⟨hrun, hk⟩
  · exact .inl ⟨s, hs, hrun, hk, .inr hmember⟩

omit hs₀ in
theorem touched_upsert_mono (h : Touched w.db R k) :
    Touched { w.db with stepOutputFacts := t } R k := by
  obtain ⟨s, hs, hrun, hk, hfact | hmember⟩ := h
  · exact ⟨s, hs, hrun, hk, .inl ((hhas _).2 (.inl hfact))⟩
  · exact ⟨s, hs, hrun, hk, .inr hmember⟩

theorem stageDone_upsert {j : ℤ} (h : StageDone { w.db with stepOutputFacts := t } R j)
    (hnot : s₀.runId = R → s₀.stageIndex = j → HasFact w.db s₀.runId s₀.stepIndex) : StageDone w.db R j := by
  refine ⟨h.1, fun s hs hrun hk => ?_⟩
  rcases h.2 s hs hrun hk with hfact | hmembers
  · rcases (hasFact_upsert hs₀ hhas hs).1 hfact with hfact | rfl
    · exact .inl hfact
    · exact .inl (hnot hrun hk)
  · exact .inr hmembers

/-- **Recording the output of a step** keeps runs settled. -/
theorem Settled.upsertFact (h : Settled rt u p w) (hmay : MayTouch rt p w s₀)
    (hfollow : HasFact w.db s₀.runId s₀.stepIndex ∨ Marked w.db s₀.runId rt ∨ (s₀.runId, s₀.stageIndex) ∈ p.follow)
    (hdone : u → HasFact w.db s₀.runId s₀.stepIndex ∨ Marked w.db s₀.runId rt ∨
      ∀ x ∈ w.db.workItems, ItemOf rt s₀ x → IsCompleted w.db x.id) :
    Settled rt u p { w with db := { w.db with stepOutputFacts := t } } := by
  have hmono : ∀ {R i}, HasFact w.db R i → HasFact { w.db with stepOutputFacts := t } R i :=
    fun hf => (hhas _).2 (.inl hf)
  have htouch : ∀ {R k}, Touched w.db R k → Touched { w.db with stepOutputFacts := t } R k :=
    touched_upsert_mono hhas
  exact { h with
    rooted := (Move.catalog w.db.projects w.db.workflows w.db.workflowInstances w.db.workflowStages
      w.db.dependencySteps w.db.dependencyWorkItems t).rooted h.rooted
    fact := fun R i hf => by
      rcases (hhas (R, i)).1 hf with hf | heq
      · exact h.fact R i hf
      · simp only [Prod.mk.injEq] at heq
        exact ⟨s₀, hs₀, heq⟩
    before := fun R k ht s hs hrun hk => by
      rcases touched_upsert hs₀ hhas ht with ht | ⟨rfl, rfl⟩
      · exact (h.before R k ht s hs hrun hk).imp_left hmono
      · exact (h.before_of_mayTouch hmay hs hrun hk).imp_left hmono
    facts := fun hu s hs hf x hx hof => by
      rcases (hasFact_upsert hs₀ hhas hs).1 hf with hf | rfl
      · exact h.facts hu s hs hf x hx hof
      · rcases hdone hu with hf | hmarked | hall
        · exact h.facts hu s hs hf x hx hof
        · exact .inr hmarked
        · exact .inl (hall x hx hof)
    activated := fun a ha hnot => (h.activated a ha hnot).imp_left htouch
    opened := fun x hx hnot => (h.opened x hx hnot).imp_left htouch
    filled := fun s hs hk hnot => by
      have hold : s.stageIndex = 0 ∨ Touched w.db s.runId s.stageIndex → _ := fun hk => h.filled s hs hk hnot
      rcases hk with hk | hk
      · exact (hold (.inl hk)).imp_left hmono
      · rcases touched_upsert hs₀ hhas hk with hk | ⟨hrun, hk⟩
        · exact (hold (.inr hk)).imp_left hmono
        · rw [MayTouch, hrun, hk] at hmay
          rcases hmay with ht | hmarked | ⟨hstarting, _⟩
          · exact (hold (.inr ht)).imp_left hmono
          · exact .inr (.inr hmarked)
          · exact absurd hstarting hnot
    followed := fun R j hstage hnext hnot => by
      by_cases hsame : s₀.runId = R ∧ s₀.stageIndex = j
      · obtain ⟨rfl, rfl⟩ := hsame
        rcases hfollow with hf | hmarked | hf
        · exact (h.followed _ _ (stageDone_upsert hs₀ hhas hstage fun _ _ => hf) hnext hnot).imp_left htouch
        · exact .inr (.inl hmarked)
        · exact absurd hf hnot
      · exact (h.followed R j (stageDone_upsert hs₀ hhas hstage fun hr hk => absurd ⟨hr, hk⟩ hsame) hnext
          hnot).imp_left htouch
    published := fun s hs hm hd hnot => (h.published s hs hm hd hnot).imp_left hmono }

theorem HandlerStep.upsertFact
    (hdone : u → HasFact w.db s₀.runId s₀.stepIndex ∨ Marked w.db s₀.runId rt ∨
      ∀ x ∈ w.db.workItems, ItemOf rt s₀ x → IsCompleted w.db x.id) :
    HandlerStep rt u w { w with db := { w.db with stepOutputFacts := t } } where
  enqueued _ := .inl
  inserted _ := .inl
  barrier _ x hx := .inl ⟨hx, id⟩
  published hu s hs hf := by
    rcases (hasFact_upsert hs₀ hhas hs).1 hf with hf | rfl
    · exact .inl hf
    · exact hdone hu
  activations := .inl rfl
  items _ := id
  steps _ := id
  completed _ := id
  dead _ := id

end Fact

/-! ### A work item becomes a member -/

/-- The membership of a work item is not pending any more. -/
def Pending.enroll (p : Pending) (x : WorkItemRecord) : Pending := { p with queued := p.queued \ {(x.runId, x.id)} }

variable {x : WorkItemRecord}

theorem item_eq {db : Store} {y : WorkItemRecord} (hx : x ∈ db.workItems) (hy : y ∈ db.workItems) (h : x.id = y.id)
    : x = y :=
  Table.eq_of_clash hx hy (by simp [Schema.workItems, h])

/-- A work item that is a member has no membership to be recorded. -/
theorem Settled.enroll (h : Settled rt u p w) (hx : x ∈ w.db.workItems) (hmember : IsMember w.db x)
    : Settled rt u (p.enroll x) w := by
  have hcases : ∀ y ∈ w.db.workItems, IsMember w.db y ∨ (y.runId, y.id) ≠ (x.runId, x.id) := by
    intro y hy
    by_cases hyx : y.id = x.id
    · exact .inl (item_eq hy hx hyx ▸ hmember)
    · exact .inr fun heq => hyx (congrArg Prod.snd heq)
  exact { h with
    enrolled := fun y hy ho hq hnot =>
      (hcases y hy).elim .inl fun hne => h.enrolled y hy ho hq fun hin => hnot ⟨hin, hne⟩
    together := fun hu s hs hm y hy hof => by
      rcases hcases y hy with hy | hne
      · exact .inl hy
      · exact (h.together hu s hs hm _ ‹_› hof).imp_right (Or.imp_left fun hin => ⟨hin, hne⟩) }

section Member

variable {s₀ : WorkflowDependencyStepRecord} {m₀ : WorkflowDependencyWorkItemRecord}
  {t : Table Schema.dependencyWorkItems} (hs₀ : s₀ ∈ w.db.dependencySteps) (hof₀ : MemberOf s₀ m₀)
  (hinsert : w.db.dependencyWorkItems.insert m₀ = .ok t)

include hinsert

theorem hasMember_insert_mono (h : HasMember w.db s) :
    HasMember { w.db with dependencyWorkItems := t } s := by
  obtain ⟨m, hm, hof⟩ := h
  exact ⟨m, (Table.mem_insert hinsert).2 (.inl hm), hof⟩

theorem isMember_insert_mono (h : IsMember w.db x) :
    IsMember { w.db with dependencyWorkItems := t } x := by
  obtain ⟨m, hm, hof⟩ := h
  exact ⟨m, (Table.mem_insert hinsert).2 (.inl hm), hof⟩

theorem touched_insert_mono (h : Touched w.db R k) :
    Touched { w.db with dependencyWorkItems := t } R k := by
  obtain ⟨s, hs, hrun, hk, hfact | hmember⟩ := h
  · exact ⟨s, hs, hrun, hk, .inl hfact⟩
  · exact ⟨s, hs, hrun, hk, .inr (hasMember_insert_mono hinsert hmember)⟩

theorem dead_insert_mono (h : Dead w.db R rt) : Dead { w.db with dependencyWorkItems := t } R rt :=
  h.imp_right fun ⟨m, hm, hof⟩ => ⟨m, (Table.mem_insert hinsert).2 (.inl hm), hof⟩

include hs₀ hof₀

theorem hasMember_insert (hs : s ∈ w.db.dependencySteps) (h : HasMember { w.db with dependencyWorkItems := t } s)
    : HasMember w.db s ∨ s = s₀ := by
  obtain ⟨m, hm, hof⟩ := h
  rcases (Table.mem_insert hinsert).1 hm with hm | rfl
  · exact .inl ⟨m, hm, hof⟩
  · exact .inr (step_eq hs hs₀ (hof.1.symm.trans hof₀.1) (hof.2.2.symm.trans hof₀.2.2))

theorem touched_insert (h : Touched { w.db with dependencyWorkItems := t } R k) :
    Touched w.db R k ∨ (s₀.runId = R ∧ s₀.stageIndex = k) := by
  obtain ⟨s, hs, hrun, hk, hfact | hmember⟩ := h
  · exact .inl ⟨s, hs, hrun, hk, .inl hfact⟩
  · rcases hasMember_insert hs₀ hof₀ hinsert hs hmember with hmember | rfl
    · exact .inl ⟨s, hs, hrun, hk, .inr hmember⟩
    · exact .inr ⟨hrun, hk⟩

/-- The new member has not completed, so that no step is done by it. -/
theorem membersDone_insert (hs : s ∈ w.db.dependencySteps) (hopen : ¬ IsCompleted w.db m₀.workItemId)
    (hmember : HasMember { w.db with dependencyWorkItems := t } s)
    (hdone : MembersDone { w.db with dependencyWorkItems := t } s) : HasMember w.db s ∧ MembersDone w.db s := by
  have hall : MembersDone w.db s := fun m hm hof => hdone m ((Table.mem_insert hinsert).2 (.inl hm)) hof
  rcases hasMember_insert hs₀ hof₀ hinsert hs hmember with hmember | rfl
  · exact ⟨hmember, hall⟩
  · exact absurd (hdone m₀ ((Table.mem_insert hinsert).2 (.inr rfl)) hof₀) hopen

/-- **Recording a membership** keeps runs settled. -/
theorem Settled.insertMember (h : Settled rt u p w) (hx : x ∈ w.db.workItems) (hid : x.id = m₀.workItemId)
    (hitem : ItemOf rt s₀ x) (hordinary : Ordinary rt x) (hopen : ¬ IsCompleted w.db x.id) (hmay : MayTouch rt p w s₀)
    (htogether : u → ∀ y ∈ w.db.workItems, ItemOf rt s₀ y →
      IsMember w.db y ∨ (y.runId, y.id) ∈ p.queued ∨ Marked w.db s₀.runId rt) :
    Settled rt u (p.enroll x) { w with db := { w.db with dependencyWorkItems := t } } := by
  have htouch : ∀ {R k}, Touched w.db R k → Touched { w.db with dependencyWorkItems := t } R k :=
    touched_insert_mono hinsert
  have hdead : ∀ {R}, Dead w.db R rt → Dead { w.db with dependencyWorkItems := t } R rt := dead_insert_mono hinsert
  have hmono : ∀ {y}, IsMember w.db y → IsMember { w.db with dependencyWorkItems := t } y :=
    isMember_insert_mono hinsert
  have hnew : IsMember { w.db with dependencyWorkItems := t } x :=
    ⟨m₀, (Table.mem_insert hinsert).2 (.inr rfl), hof₀.1.trans hitem.1.symm, hid.symm⟩
  have hsettled : Settled rt u p { w with db := { w.db with dependencyWorkItems := t } } := { h with
    rooted := (Move.catalog w.db.projects w.db.workflows w.db.workflowInstances w.db.workflowStages
      w.db.dependencySteps t w.db.stepOutputFacts).rooted h.rooted
    member := fun m hm => by
      rcases (Table.mem_insert hinsert).1 hm with hm | rfl
      · exact h.member m hm
      · exact ⟨s₀, hs₀, hof₀, x, hx, hid, hitem, hordinary⟩
    before := fun R k ht s hs hrun hk => by
      rcases touched_insert hs₀ hof₀ hinsert ht with ht | ⟨rfl, rfl⟩
      · exact h.before R k ht s hs hrun hk
      · exact h.before_of_mayTouch hmay hs hrun hk
    activated := fun a ha hnot => (h.activated a ha hnot).imp_left htouch
    opened := fun x hx hnot => (h.opened x hx hnot).imp_left htouch
    enrolled := fun y hy ho hq hnot => (h.enrolled y hy ho hq hnot).imp_left hmono
    filled := fun s hs hk hnot => by
      rcases hk with hk | hk
      · exact h.filled s hs (.inl hk) hnot
      · rcases touched_insert hs₀ hof₀ hinsert hk with hk | ⟨hrun, hk⟩
        · exact h.filled s hs (.inr hk) hnot
        · rw [MayTouch, hrun, hk] at hmay
          rcases hmay with ht | hmarked | ⟨hstarting, _⟩
          · exact h.filled s hs (.inr ht) hnot
          · exact .inr (.inr hmarked)
          · exact absurd hstarting hnot
    followed := fun R j hstage hnext hnot => by
      refine (h.followed R j ⟨hstage.1, fun s hs hrun hk => ?_⟩ hnext hnot).imp htouch hdead
      refine (hstage.2 s hs hrun hk).imp_right fun hmembers => ?_
      exact membersDone_insert hs₀ hof₀ hinsert hs (hid ▸ hopen) hmembers.1 hmembers.2
    together := fun hu s hs hm y hy hof => by
      rcases hasMember_insert hs₀ hof₀ hinsert hs hm with hm | rfl
      · exact (h.together hu s hs hm y hy hof).imp_left hmono
      · exact (htogether hu y hy hof).imp_left hmono
    published := fun s hs hm hd hnot => by
      obtain ⟨hm, hd⟩ := membersDone_insert hs₀ hof₀ hinsert hs (hid ▸ hopen) hm hd
      exact (h.published s hs hm hd hnot).imp_right hdead }
  exact hsettled.enroll hx hnew

omit hs₀ hof₀ in
theorem HandlerStep.insertMember : HandlerStep rt u w { w with db := { w.db with dependencyWorkItems := t } } :=
  .of_same rfl rfl rfl (fun _ _ => id) (fun _ => id) (fun _ => id) fun _ => dead_insert_mono hinsert

end Member

end GoEtl.Controller
