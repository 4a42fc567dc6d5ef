import GoEtl.Controller.Compiled

/-!
# Starting runs and stages

The writes of a submission and of an activation keep runs settled: a run gets its row and its steps, the
activation of a stage is begun, its work items are inserted and queued in one transaction, and dependents
are queued. What each write leaves to do is added to what is pending: the members of the work items
that were queued, and the rest of the stage that is being started.
-/

namespace GoEtl.Controller

open Library Persistence Workflow

variable {rt : Runtime} {u : Prop} {p : Pending} {w : World} {runId : String}

/-! ### Rows that no handler reads back -/

theorem carried_catalog (db : Store) (projects : Table Schema.projects) (workflows : Table Schema.workflows)
    (stages : Table Schema.workflowStages) :
    Carried ∅ db { db with projects := projects, workflows := workflows, workflowStages := stages } where
  instances := rfl
  steps := rfl
  members := rfl
  facts := rfl
  items := rfl
  completed _ := by simp [IsCompleted]
  failed _ := id
  recorded _ _ := id
  placed _ := id
  rooted := (Move.catalog projects workflows db.workflowInstances stages db.dependencySteps db.dependencyWorkItems
    db.stepOutputFacts).rooted
  placement := id
  outcome _ := id

/-- The project, the workflow and the stage rows of a run are not part of its state. -/
theorem Settled.catalog (h : Settled rt u p w) (projects : Table Schema.projects) (workflows : Table Schema.workflows)
    (stages : Table Schema.workflowStages) :
    Settled rt u p { w with db := { w.db with projects := projects, workflows := workflows, workflowStages := stages } } := by
  have hcarried := h.carried (carried_catalog w.db projects workflows stages)
  rwa [Pending.completing_empty] at hcarried

/-! ### A run is created -/

variable {R : String}

section Run

variable {run : WorkflowRunRecord} {t : Table Schema.workflowInstances}
  (hinsert : w.db.workflowInstances.insert run = .ok t) (hrun : Admissible rt u run)

include hinsert

theorem marked_insert_mono (h : Marked w.db R rt) : Marked { w.db with workflowInstances := t } R rt := by
  obtain ⟨r, hr, hmarked⟩ := h
  exact ⟨r, (Table.mem_insert hinsert).2 (.inl hr), hmarked⟩

/-- **A new run** has nothing to settle. -/
theorem Settled.insertRun (h : Settled rt u p w) (hrun : Admissible rt u run) :
    Settled rt u p { w with db := { w.db with workflowInstances := t } } := by
  refine h.withRuns (fun _ => marked_insert_mono hinsert) (fun r hr hnot => ?_) (fun s hs => ?_)
    (fun r hr hnot hsteps => ?_)
  · rcases (Table.mem_insert hinsert).1 hr with hr | rfl
    · exact h.admitted r hr (mt (marked_insert_mono hinsert) hnot)
    · exact hrun
  · exact (h.planned s hs).imp fun r hr => ⟨(Table.mem_insert hinsert).2 (.inl hr.1), hr.2⟩
  · rcases (Table.mem_insert hinsert).1 hr with hr | rfl
    · exact h.workflow r hr (mt (marked_insert_mono hinsert) hnot) hsteps
    · -- A run that has steps has a row already.
      obtain ⟨s, hs, hid⟩ := hsteps
      obtain ⟨r', hr', hid'⟩ := h.planned s hs
      have hclash := (Table.insert_ok hinsert).2.2 r' hr'
      simp [Schema.workflowInstances, Schema.keyed, hid', hid] at hclash

theorem HandlerStep.insertRun : HandlerStep rt u w { w with db := { w.db with workflowInstances := t } } :=
  .of_same rfl rfl rfl (fun _ _ => id) (fun _ => id) (fun _ => id) fun _ => Or.imp_left (marked_insert_mono hinsert)

end Run

/-! ### A run gets its steps -/

variable {s : WorkflowDependencyStepRecord} {x : WorkItemRecord}

section Steps

variable {run : WorkflowRunRecord} {workflow : WorkflowDefinition} {stages : List Stage} {createdAt : String}
  {t : Table Schema.dependencySteps} (hrun : run ∈ w.db.workflowInstances)
  (hnone : ∀ s ∈ w.db.dependencySteps, s.runId ≠ run.id)
  (hsteps : ∀ s, s ∈ t ↔ s ∈ w.db.dependencySteps ∨ s ∈ dependencyStepRecords run.id createdAt stages)

theorem mem_dependencyStepRecords :
    s ∈ dependencyStepRecords R createdAt stages ↔ ∃ stage ∈ stages, ∃ step ∈ stage.steps,
      s = ⟨R, step.stageIndex, step.stepIndex, step.stepId, stage.parallelWith, createdAt⟩ := by
  simp only [dependencyStepRecords, List.mem_flatMap, List.mem_map, eq_comm]

theorem runId_of_mem_dependencyStepRecords (h : s ∈ dependencyStepRecords R createdAt stages) : s.runId = R := by
  obtain ⟨_, _, _, _, rfl⟩ := mem_dependencyStepRecords.1 h
  rfl

include hnone hsteps

/-- A step with an old run is old. -/
theorem mem_steps_insert (hs : s ∈ t) (hold : s.runId ≠ run.id ∨ ∃ r ∈ w.db.dependencySteps, r.runId = s.runId)
    : s ∈ w.db.dependencySteps := by
  rcases (hsteps s).1 hs with hs | hs
  · exact hs
  · have hid := runId_of_mem_dependencyStepRecords hs
    rcases hold with hne | ⟨r, hr, hr'⟩
    · exact absurd hid hne
    · exact absurd (hr'.trans hid) (hnone r hr)

theorem touched_steps_insert {k : ℤ} (h : Shape rt u w) (ht : Touched { w.db with dependencySteps := t } R k)
    : Touched w.db R k := by
  obtain ⟨s, hs, hR, hk, hrecorded⟩ := ht
  refine ⟨s, mem_steps_insert hnone hsteps hs (.inr ?_), hR, hk, hrecorded⟩
  rcases hrecorded with hfact | ⟨m, hm, hof⟩
  · obtain ⟨r, hr, hrrun, _⟩ := h.fact _ _ hfact
    exact ⟨r, hr, hrrun⟩
  · obtain ⟨r, hr, hof', _⟩ := h.member m hm
    exact ⟨r, hr, hof'.1.symm.trans hof.1⟩

omit hnone in
theorem touched_steps_mono {k : ℤ} (h : Touched w.db R k) :
    Touched { w.db with dependencySteps := t } R k := by
  obtain ⟨s, hs, hrecorded⟩ := h
  exact ⟨s, (hsteps s).2 (.inl hs), hrecorded⟩

/-- A stage that is done is one of an old run. -/
theorem stageDone_steps_insert {j : ℤ} (h : Shape rt u w) (hdone : StageDone { w.db with dependencySteps := t } R j)
    : R ≠ run.id ∧ StageDone w.db R j := by
  obtain ⟨⟨s, hs, hR, hj⟩, hall⟩ := hdone
  have hold : ∃ r ∈ w.db.dependencySteps, r.runId = R := by
    rcases hall s hs hR hj with hfact | ⟨⟨m, hm, hof⟩, _⟩
    · obtain ⟨r, hr, hrrun, _⟩ := h.fact _ _ hfact
      exact ⟨r, hr, hrrun.trans hR⟩
    · obtain ⟨r, hr, hof', _⟩ := h.member m hm
      exact ⟨r, hr, hof'.1.symm.trans (hof.1.trans hR)⟩
  obtain ⟨r, hr, hrR⟩ := hold
  refine ⟨fun heq => hnone r hr (hrR.trans heq), ⟨s, ?_, hR, hj⟩, fun s hs => hall s ((hsteps s).2 (.inl hs))⟩
  exact mem_steps_insert hnone hsteps hs (.inr ⟨r, hr, hrR.trans hR.symm⟩)

/-- The work items of a step that has some, and the step, are old. -/
theorem step_of_itemOf (h : Shape rt u w) (hs : s ∈ t) (hx : x ∈ w.db.workItems) (hof : ItemOf rt s x)
    : s ∈ w.db.dependencySteps := by
  obtain ⟨r, hr, hr', _⟩ := h.item x hx
  exact mem_steps_insert hnone hsteps hs (.inr ⟨r, hr, hr'.symm.trans hof.1⟩)

include hrun

/-- **The steps of a run** make its first stage pending. -/
theorem Settled.insertSteps (h : Settled rt u p w) (hworkflow : rt.admittedWorkflow run = .ok workflow)
    (hstages : normalizeStages workflow = .ok stages) :
    Settled rt u { p with starting := insert (run.id, 0) p.starting }
      { w with db := { w.db with dependencySteps := t } } := by
  have hshape := h.toShape
  have hmem : ∀ {s}, s ∈ w.db.dependencySteps → s ∈ t := fun {s} hs => (hsteps s).2 (.inl hs)
  have htouch : ∀ {R k}, Touched w.db R k → Touched { w.db with dependencySteps := t } R k :=
    touched_steps_mono hsteps
  exact { h with
    rooted := (Move.catalog w.db.projects w.db.workflows w.db.workflowInstances w.db.workflowStages t
      w.db.dependencyWorkItems w.db.stepOutputFacts).rooted h.rooted
    planned := fun s hs => by
      rcases (hsteps s).1 hs with hs | hs
      · exact h.planned s hs
      · exact ⟨run, hrun, (runId_of_mem_dependencyStepRecords hs).symm⟩
    workflow := fun r hr hnot hplan => by
      by_cases hid : r.id = run.id
      · obtain rfl := run_eq hr hrun hid
        refine ⟨workflow, stages, hworkflow, hstages, fun step => ⟨fun hstep => ?_, ?_⟩⟩
        · obtain ⟨stage, hstage, hstep⟩ := List.mem_flatMap.1 hstep
          exact ⟨_, (hsteps _).2 (.inr (mem_dependencyStepRecords.2 ⟨stage, hstage, step, hstep, rfl⟩)), rfl, rfl⟩
        · rintro ⟨s, hs, hid, rfl⟩
          rcases (hsteps s).1 hs with hs | hs
          · exact absurd hid (hnone s hs)
          · obtain ⟨stage, hstage, step, hstep, rfl⟩ := mem_dependencyStepRecords.1 hs
            exact List.mem_flatMap.2 ⟨stage, hstage, hstep⟩
      · have hold : ∀ s, s ∈ t → s.runId = r.id → s ∈ w.db.dependencySteps := fun s hs hsr =>
          mem_steps_insert hnone hsteps hs (.inl (hsr ▸ hid))
        obtain ⟨s, hs, hsr⟩ := hplan
        obtain ⟨workflow', stages', hworkflow', hstages', hiff⟩ := h.workflow r hr hnot ⟨s, hold s hs hsr, hsr⟩
        refine ⟨workflow', stages', hworkflow', hstages', fun step => (hiff step).trans ⟨?_, ?_⟩⟩
        · rintro ⟨s, hs, hsr, rfl⟩
          exact ⟨s, hmem hs, hsr, rfl⟩
        · rintro ⟨s, hs, hsr, rfl⟩
          exact ⟨s, hold s hs hsr, hsr, rfl⟩
    item := fun x hx => (h.item x hx).imp fun s hs => ⟨hmem hs.1, hs.2⟩
    member := fun m hm => (h.member m hm).imp fun s hs => ⟨hmem hs.1, hs.2⟩
    fact := fun R i hf => (h.fact R i hf).imp fun s hs => ⟨hmem hs.1, hs.2⟩
    kind := fun s hs x hx y hy hsx => h.kind s (step_of_itemOf hnone hsteps hshape hs hx hsx) x hx y hy hsx
    dependsOn := fun hu s hs x hx y hy hsx =>
      h.dependsOn hu s (step_of_itemOf hnone hsteps hshape hs hx hsx) x hx y hy hsx
    before := fun R k ht s hs hsR hk => by
      have htold := touched_steps_insert hnone hsteps hshape ht
      obtain ⟨r, hr, hrR, _⟩ := id htold
      exact h.before R k htold s (mem_steps_insert hnone hsteps hs (.inr ⟨r, hr, hrR.trans hsR.symm⟩)) hsR hk
    facts := fun hu s hs hf x hx hof => h.facts hu s (step_of_itemOf hnone hsteps hshape hs hx hof) hf x hx hof
    activated := fun a ha hnot => (h.activated a ha fun hin => hnot (.inr hin)).imp_left htouch
    opened := fun x hx hnot => (h.opened x hx fun hin => hnot (.inr hin)).imp_left htouch
    filled := fun s hs hk hnot => by
      rcases (hsteps s).1 hs with hs | hs
      · exact h.filled s hs (hk.imp_right (touched_steps_insert hnone hsteps hshape)) fun hin => hnot (.inr hin)
      · have hid := runId_of_mem_dependencyStepRecords hs
        rcases hk with hk | hk
        · exact absurd (.inl (by rw [hid, hk])) hnot
        · obtain ⟨r, hr, hrrun, _⟩ := touched_steps_insert hnone hsteps hshape hk
          exact absurd (hrrun.trans hid) (hnone r hr)
    followed := fun R j hdone hnext hnot => by
      obtain ⟨hne, hdone⟩ := stageDone_steps_insert hnone hsteps hshape hdone
      obtain ⟨s, hs, hsR, hsj⟩ := hnext
      have hold : s ∈ w.db.dependencySteps := mem_steps_insert hnone hsteps hs (.inl (hsR ▸ hne))
      exact (h.followed R j hdone ⟨s, hold, hsR, hsj⟩ hnot).imp_left htouch
    together := fun hu s hs hm y hy hof =>
      h.together hu s (step_of_itemOf hnone hsteps hshape hs hy hof) hm y hy hof
    published := fun s hs hm hd hnot => by
      obtain ⟨m, hm', hof⟩ := id hm
      obtain ⟨r, hr, hof', _⟩ := h.member m hm'
      exact h.published s (mem_steps_insert hnone hsteps hs (.inr ⟨r, hr, hof'.1.symm.trans hof.1⟩)) hm hd hnot }

omit hrun hnone in
theorem HandlerStep.insertSteps : HandlerStep rt u w { w with db := { w.db with dependencySteps := t } } :=
  .of_same rfl rfl rfl (fun _ _ => id) (fun s hs => (hsteps s).2 (.inl hs)) (fun _ => id) fun _ => id

end Steps

/-! ### The activation of a stage is begun -/

/-- **Beginning to activate a stage** makes the stage pending. -/
theorem Settled.begin (h : Settled rt u p w) {a : String × ℤ} (hnew : a ∉ w.activations) :
    Settled rt u { p with starting := insert a p.starting } { w with activations := w.activations ++ [a] } where
  toShape := { h.toShape with
    begun := fun x hx hk => List.mem_append_left _ (h.begun x hx hk)
    nodup := h.nodup.append (List.nodup_singleton a) (by simpa using hnew) }
  activated b hb hnot := by
    rcases List.mem_append.1 hb with hb | hb
    · exact h.activated b hb fun hin => hnot (.inr hin)
    · exact absurd (.inl (List.mem_singleton.1 hb)) hnot
  opened x hx hnot := h.opened x hx fun hin => hnot (.inr hin)
  enrolled := h.enrolled
  filled s hs hk hnot := h.filled s hs hk fun hin => hnot (.inr hin)
  followed := h.followed
  together := h.together
  published := h.published
  released := h.released

theorem HandlerStep.begin {a : String × ℤ} (hnew : a ∉ w.activations) (halive : ¬ Dead w.db a.1 rt) :
    HandlerStep rt u w { w with activations := w.activations ++ [a] } where
  enqueued _ := .inl
  inserted _ := .inl
  barrier _ _ hx := .inl ⟨hx, id⟩
  published _ _ _ := .inl
  activations := .inr ⟨a, rfl, hnew, halive⟩
  items _ := id
  steps _ := id
  completed _ := id
  dead _ := id

/-! ### Dependents are queued -/

/-- The memberships of queued work items are pending. -/
def Pending.enqueue (p : Pending) (runId : String) (ids : Set String) : Pending :=
  { p with queued := p.queued ∪ {a | a.1 = runId ∧ a.2 ∈ ids} }

section Enqueue

variable {queued : List QueuedWorkRecord} {t : Table Schema.queuedWork} {fk : Bool}
  (htx : enqueueWorkItemsOp fk queued w.db = .ok ((), { w.db with queuedWork := t }))
  (hqueued : ∀ id, t.Has (·.workItemId) id ↔ IsQueued w.db id ∨ ∃ q ∈ queued, q.id = id)
  (hitems : ∀ q ∈ queued, ∃ x ∈ w.db.workItems, x.id = q.id ∧ x.runId = runId)
  (hfresh : ∀ q ∈ queued, ¬ IsAttempted w.db q.id)

include htx hqueued hitems hfresh

/-- **Queueing work items** makes their memberships pending. -/
theorem Settled.enqueue (h : Settled rt u p w) :
    Settled rt u (p.enqueue runId {id | ∃ q ∈ queued, q.id = id}) { w with db := { w.db with queuedWork := t } } := by
  have hmoves := enqueueWorkItemsOp_moves htx
  have hstep : Call.step w.db ⟨fk, .enqueueWorkItems queued⟩ = { w.db with queuedWork := t } := by
    simp [Call.step, Op.tx, Tx.commit, htx]
  have hplacement : ∀ id, InOnePlace { w.db with queuedWork := t } id := by
    rw [← hstep]
    exact exclusive_step (fun q hq => h.rooted.idle_of_not_isAttempted (hfresh q hq)) h.placement
  have hnew : ∀ x ∈ w.db.workItems, (x.runId, x.id) ∉ (p.enqueue runId {id | ∃ q ∈ queued, q.id = id}).queued →
      IsQueued { w.db with queuedWork := t } x.id → IsQueued w.db x.id := by
    intro x hx hnot hid
    refine ((hqueued x.id).1 hid).resolve_right ?_
    rintro ⟨q, hq, hqx⟩
    refine hnot (.inr ⟨?_, q, hq, hqx⟩)
    obtain ⟨y, hy, hyq, hyrun⟩ := hitems q hq
    exact item_eq hx hy (hqx.symm.trans hyq.symm) ▸ hyrun
  exact { h with
    rooted := hmoves.invariant (fun _ _ _ _ hmove => hmove.rooted) h.rooted
    placement := hplacement
    queue := fun id hid => by
      rcases (hqueued id).1 hid with hid | ⟨q, hq, rfl⟩
      · exact h.queue id hid
      · obtain ⟨x, hx, hxq, _⟩ := hitems q hq
        exact ⟨x, hx, hxq⟩
    enrolled := fun x hx ho hq hnot =>
      h.enrolled x hx ho (hq.imp_left (hnew x hx hnot)) fun hin => hnot (.inl hin)
    together := fun hu s hs hm y hy hof => (h.together hu s hs hm y hy hof).imp_right (Or.imp_left .inl)
    released := fun x hx item hp hd hnot =>
      (h.released x hx item hp hd hnot).imp_left (Or.imp_left fun hq => (hqueued x.id).2 (.inl hq)) }

omit htx hitems in
theorem HandlerStep.enqueue (h : Shape rt u w) : HandlerStep rt u w { w with db := { w.db with queuedWork := t } } where
  enqueued id hid := by
    rcases (hqueued id).1 hid with hid | ⟨q, hq, rfl⟩
    · exact .inl hid
    · exact .inr (hfresh q hq)
  inserted _ := .inl
  barrier hu x hx := .inr fun y hy hrun hk => h.barrier hu x hx y hy hrun hk
  published _ _ _ := .inl
  activations := .inl rfl
  items _ := id
  steps _ := id
  completed _ := id
  dead _ := id

end Enqueue

/-! ### A stage gets its work items -/

/-- **A stage that may get its work items**: it was compiled for the run and has none, its steps with work
items have no output, and all earlier steps have theirs. -/
structure Startable (rt : Runtime) (p : Pending) (w : World) (run : WorkflowRunRecord) (k : ℤ)
    (result : CompileStageResult) : Prop where
  created : run ∈ w.db.workflowInstances
  alive : ¬ Marked w.db run.id rt
  compiled : CompiledFor rt run result
  stage : ∀ i ∈ result.workItems, i.stageIndex = k ∧ ∃ s ∈ w.db.dependencySteps, s.runId = run.id ∧ s.stageIndex = k ∧
    s.stepIndex = i.stepIndex ∧ s.stepId = i.stepId
  starting : (run.id, k) ∈ p.starting
  only : ∀ a ∈ p.starting, a = (run.id, k)
  begun : k ≠ 0 → (run.id, k) ∈ w.activations
  vacant : ∀ x ∈ w.db.workItems, x.runId = run.id → x.stageIndex ≠ k
  unpublished : ∀ s ∈ w.db.dependencySteps, s.runId = run.id → s.stageIndex = k →
    HasFact w.db s.runId s.stepIndex → ∀ i ∈ result.workItems, i.stepId ≠ s.stepId
  earlier : ∀ s ∈ w.db.dependencySteps, s.runId = run.id → s.stageIndex < k → HasFact w.db s.runId s.stepIndex

theorem Startable.interference {t : World} {run : WorkflowRunRecord} {k : ℤ} {result : CompileStageResult}
    (h : Startable rt p w run k result) (ht : Interference w t) : Startable rt p t run k result := by
  obtain ⟨s, hs⟩ := exists_eq_of_carried ht.worked.carried
  obtain ⟨db, activations⟩ := t
  obtain rfl : activations = w.activations := ht.activations
  obtain rfl : db = _ := hs
  exact ⟨h.created, h.alive, h.compiled, h.stage, h.starting, h.only, h.begun, h.vacant, h.unpublished, h.earlier⟩

theorem stepId_eq {db : Store} {s' : WorkflowDependencyStepRecord} (hs : s ∈ db.dependencySteps)
    (hs' : s' ∈ db.dependencySteps) (hrun : s.runId = s'.runId) (hk : s.stageIndex = s'.stageIndex)
    (hid : s.stepId = s'.stepId) : s = s' :=
  Table.eq_of_clash hs hs' (by simp [Schema.dependencySteps, Schema.unique, hrun, hk, hid])

/-- A work item is one of its own step only. -/
theorem ItemOf.step_eq {db : Store} {s' : WorkflowDependencyStepRecord} (h : ItemOf rt s x) (h' : ItemOf rt s' x)
    (hs : s ∈ db.dependencySteps) (hs' : s' ∈ db.dependencySteps) : s = s' := by
  obtain ⟨hrun, hk, a, ha, haid⟩ := h
  obtain ⟨hrun', hk', b, hb, hbid⟩ := h'
  exact stepId_eq hs hs' (hrun.symm.trans hrun') (hk.symm.trans hk') (by rw [← haid, ← hbid, ha.unique hb])

section Queue

variable {run : WorkflowRunRecord} {k : ℤ} {result : CompileStageResult} {records : StageRecords} {fk : Bool}
  {items : Table Schema.workItems} {constraints : Table Schema.resourceConstraints}
  {queued : Table Schema.queuedWork}

/-- The database with the work items of a stage. -/
def withStage (w : World) (items : Table Schema.workItems) (constraints : Table Schema.resourceConstraints)
    (queued : Table Schema.queuedWork) : World :=
  { w with db := { w.db with workItems := items, resourceConstraints := constraints, queuedWork := queued } }

variable (hstart : Startable rt p w run k result) (hstored : StoredAs rt run.id result records)
  (hitems : ∀ x, x ∈ items ↔ x ∈ w.db.workItems ∨ x ∈ records.items)
  (hqueued : ∀ id, queued.Has (·.workItemId) id ↔ IsQueued w.db id ∨ ∃ q ∈ records.queued, q.id = id)

include hstart hstored

/-- A row of the stage is a work item of one of its steps. -/
theorem Startable.row (hx : x ∈ records.items) :
    x.runId = run.id ∧ x.stageIndex = k ∧ ∃ i ∈ result.workItems, IsRowOf rt run.id i x ∧
      ∃ s ∈ w.db.dependencySteps, ItemOf rt s x ∧ s.stepIndex = i.stepIndex ∧ s.stepId = i.stepId ∧
        ¬ HasFact w.db s.runId s.stepIndex := by
  obtain ⟨i, hi, hrow⟩ := hstored.row x hx
  obtain ⟨hrun, hstage, item, hitem, _, hid, _⟩ := id hrow
  obtain ⟨hk, s, hs, hsrun, hsk, hsi, hsid⟩ := hstart.stage i hi
  refine ⟨hrun, hstage.trans hk, i, hi, hrow, s, hs, ?_, hsi, hsid, fun hfact => ?_⟩
  · exact ⟨hrun.trans hsrun.symm, (hstage.trans hk).trans hsk.symm, item, hitem, hid.trans hsid.symm⟩
  · exact hstart.unpublished s hs hsrun hsk hfact i hi hsid.symm

include hitems

variable {y : WorkItemRecord}

theorem Startable.id_new (hx : x ∈ records.items) (hy : y ∈ w.db.workItems) : y.id ≠ x.id := by
  intro hid
  have heq : y = x := Table.eq_of_clash ((hitems y).2 (.inl hy)) ((hitems x).2 (.inr hx))
    (by simp [Schema.workItems, hid])
  obtain ⟨hrun, hk, _⟩ := hstart.row hstored hx
  exact hstart.vacant y hy (heq ▸ hrun) (heq ▸ hk)

theorem Startable.not_isAttempted (h : Shape rt u w) (hx : x ∈ records.items) :
    ¬ IsAttempted w.db x.id := by
  rintro ⟨a, ha, hid⟩
  obtain ⟨y, hy, hya⟩ := h.rooted.item a ha
  exact hstart.id_new hstored hitems hx hy (hya.trans hid)

omit hstart hstored in
theorem ids_injective : ∀ x ∈ records.items, ∀ y ∈ records.items, x.id = y.id → x = y := fun x hx y hy hid =>
  Table.eq_of_clash ((hitems x).2 (.inr hx)) ((hitems y).2 (.inr hy)) (by simp [Schema.workItems, hid])

omit hitems in
/-- With a work item of the stage, no later stage has work items. -/
theorem Startable.last (h : Settled rt u p w) (hx : x ∈ records.items) (hy : y ∈ w.db.workItems)
    (hrun : y.runId = run.id) : y.stageIndex ≤ k := by
  by_contra hlt
  push Not at hlt
  have hnot : (y.runId, y.stageIndex) ∉ p.starting := fun hin => by
    have := hstart.only _ hin
    simp only [Prod.mk.injEq] at this
    omega
  rcases h.opened y hy hnot with htouched | hmarked
  · obtain ⟨_, _, _, _, _, s, hs, hof, _, _, hnofact⟩ := hstart.row hstored hx
    have hxrun := (hstart.row hstored hx).1
    have hxk := (hstart.row hstored hx).2.1
    have hsrun : s.runId = y.runId := hof.1.symm.trans (hxrun.trans hrun.symm)
    rcases h.before _ _ htouched s hs hsrun (by rw [← hof.2.1, hxk]; exact hlt) with hfact | hmarked
    · exact hnofact hfact
    · exact hstart.alive (hrun ▸ hmarked)
  · exact hstart.alive (hrun ▸ hmarked)

omit hstored hitems in
/-- The earlier work items of the run have completed. -/
theorem Startable.completed (h : Shape rt u w) (hu : u) (hy : y ∈ w.db.workItems) (hrun : y.runId = run.id)
    (hk : y.stageIndex < k) : IsCompleted w.db y.id := by
  obtain ⟨s, hs, hof⟩ := h.item y hy
  have hfact := hstart.earlier s hs (hof.1.symm.trans hrun) (hof.2.1 ▸ hk)
  refine (h.facts hu s hs hfact y hy hof).resolve_right fun hmarked => hstart.alive ?_
  rwa [← hrun, hof.1]

include hqueued

/-- A work item that was there is queued only if it was. -/
theorem Startable.queued_old (hy : y ∈ w.db.workItems) (hq : IsQueued (withStage w items constraints queued).db y.id)
    : IsQueued w.db y.id := by
  refine ((hqueued y.id).1 hq).resolve_right ?_
  rintro ⟨q, hq, hid⟩
  obtain ⟨x, hx, hxq⟩ := hstored.queued q hq
  exact hstart.id_new hstored hitems hx hy (hid.symm.trans hxq.symm)

/-- A new work item is queued only if the records say so. -/
theorem Startable.queued_new (h : Shape rt u w) (hx : x ∈ records.items)
    (hq : IsQueued (withStage w items constraints queued).db x.id) : records.Queues x := by
  refine ((hqueued x.id).1 hq).resolve_left fun hq => ?_
  obtain ⟨y, hy, hid⟩ := h.queue _ hq
  exact hstart.id_new hstored hitems hx hy hid

omit hqueued in
/-- What every pair of work items of a step shares, if old pairs and new pairs share it. -/
theorem Startable.pair {P : WorkItemRecord → WorkItemRecord → Prop}
    (hold : ∀ s ∈ w.db.dependencySteps, ∀ x ∈ w.db.workItems, ∀ y ∈ w.db.workItems, ItemOf rt s x → ItemOf rt s y → P x y)
    (hnew : ∀ x ∈ records.items, ∀ y ∈ records.items, ∀ i ∈ result.workItems, ∀ j ∈ result.workItems,
      IsRowOf rt run.id i x → IsRowOf rt run.id j y → i.stepId = j.stepId → P x y) (hs : s ∈ w.db.dependencySteps)
    (hx : x ∈ items) (hy : y ∈ items) (hsx : ItemOf rt s x) (hsy : ItemOf rt s y) : P x y := by
  have hmixed : ∀ {x y : WorkItemRecord}, x ∈ records.items → y ∈ w.db.workItems → ItemOf rt s x → ¬ ItemOf rt s y := by
    intro x y hx hy hsx hsy
    obtain ⟨hrun, hk, _⟩ := hstart.row hstored hx
    exact hstart.vacant y hy (hsy.1.trans (hsx.1.symm.trans hrun)) (hsy.2.1.trans (hsx.2.1.symm.trans hk))
  rcases (hitems x).1 hx with hx | hx
  · rcases (hitems y).1 hy with hy | hy
    · exact hold s hs x hx y hy hsx hsy
    · exact absurd hsx (hmixed hy hx hsy)
  · rcases (hitems y).1 hy with hy | hy
    · exact absurd hsy (hmixed hx hy hsx)
    · obtain ⟨i, hi, hix⟩ := hstored.row x hx
      obtain ⟨j, hj, hjy⟩ := hstored.row y hy
      refine hnew x hx y hy i hi j hj hix hjy ?_
      obtain ⟨_, _, a, ha, _, haid, _⟩ := hix
      obtain ⟨_, _, b, hb, _, hbid, _⟩ := hjy
      obtain ⟨_, _, a', ha', haid'⟩ := hsx
      obtain ⟨_, _, b', hb', hbid'⟩ := hsy
      rw [← haid, ← hbid, ha.unique ha', hb.unique hb', haid', hbid']

/-- **Inserting and queueing the work items of a stage** makes their memberships pending. -/
theorem Settled.queueStage (h : Settled rt u p w) (hrun : Admissible rt u run)
    (htx : queueWorkItems fk ⟨records.items, records.resourceConstraints, records.queued⟩ w.db =
      .ok ((), (withStage w items constraints queued).db)) :
    Settled rt u (p.enqueue run.id {id | ∃ m ∈ records.memberships, m.workItemId = id})
      (withStage w items constraints queued) := by
  have hids := ids_injective hitems
  have hmoves := queueWorkItems_moves htx
  have hstep : Call.step w.db ⟨fk, .queueWorkItems ⟨records.items, records.resourceConstraints, records.queued⟩⟩ =
      (withStage w items constraints queued).db := by
    simp [Call.step, Op.tx, Tx.commit, htx]
  have hfresh : ∀ q ∈ records.queued, ¬ IsAttempted w.db q.id := fun q hq => by
    obtain ⟨x, hx, hxq⟩ := hstored.queued q hq
    exact hxq ▸ hstart.not_isAttempted hstored hitems h.toShape hx
  have hplacement : ∀ id, InOnePlace (withStage w items constraints queued).db id := by
    rw [← hstep]
    exact exclusive_step (fun q hq => h.rooted.idle_of_not_isAttempted (hfresh q hq)) h.placement
  have hmem : ∀ {x}, x ∈ w.db.workItems → x ∈ items := fun {x} hx => (hitems x).2 (.inl hx)
  exact { h with
    rooted := hmoves.invariant (fun _ _ _ _ hmove => hmove.rooted) h.rooted
    placement := hplacement
    item := fun x hx => by
      rcases (hitems x).1 hx with hx | hx
      · exact h.item x hx
      · obtain ⟨_, _, _, _, _, s, hs, hof, _⟩ := hstart.row hstored hx
        exact ⟨s, hs, hof⟩
    queue := fun id hid => by
      rcases (hqueued id).1 hid with hid | ⟨q, hq, rfl⟩
      · exact (h.queue id hid).imp fun x hx => ⟨hmem hx.1, hx.2⟩
      · obtain ⟨x, hx, hxq⟩ := hstored.queued q hq
        exact ⟨x, (hitems x).2 (.inr hx), hxq⟩
    member := fun m hm => by
      obtain ⟨s, hs, hof, x, hx, hrest⟩ := h.member m hm
      exact ⟨s, hs, hof, x, hmem hx, hrest⟩
    kind := fun s hs x hx y hy => hstart.pair hstored hitems h.kind (fun x _ y _ i hi j hj hix hjy hij => by
      rintro ⟨item, hitem, htype⟩
      obtain ⟨_, _, a, ha, hatype, _⟩ := hix
      obtain ⟨_, _, b, hb, hbtype, _⟩ := hjy
      refine ⟨b, hb, fun hmaterialize => htype ?_⟩
      rw [hitem.unique ha, hatype]
      exact hrun.kind result hstart.compiled j hj i hi hij.symm (hbtype ▸ hmaterialize)) hs hx hy
    materialize := fun x hx item hitem htype => by
      rcases (hitems x).1 hx with hx | hx
      · exact h.materialize x hx item hitem htype
      · obtain ⟨i, hi, _, _, a, ha, hatype, _, hadeps⟩ := hstored.row x hx
        obtain rfl := hitem.unique ha
        rw [hadeps, hrun.materialize result hstart.compiled i hi (hatype ▸ htype), List.map_nil]
    dependsOn := fun hu s hs x hx y hy => hstart.pair hstored hitems (h.dependsOn hu) (fun x _ y _ i hi j hj hix hjy hij => by
      intro item item' hitem hitem'
      obtain ⟨_, _, a, ha, _, _, hadeps⟩ := hix
      obtain ⟨_, _, b, hb, _, _, hbdeps⟩ := hjy
      rw [hitem.unique ha, hitem'.unique hb, hadeps, hbdeps, hrun.dependsOn hu result hstart.compiled i hi j hj hij])
      hs hx hy
    begun := fun x hx hk => by
      rcases (hitems x).1 hx with hx | hx
      · exact h.begun x hx hk
      · obtain ⟨hxrun, hxk, _⟩ := hstart.row hstored hx
        rw [hxrun, hxk]
        exact hstart.begun (hxk ▸ hk)
    facts := fun hu s hs hfact x hx hof => by
      rcases (hitems x).1 hx with hx | hx
      · exact h.facts hu s hs hfact x hx hof
      · obtain ⟨_, _, i, hi, _, s', hs', hof', _, _, hnofact⟩ := hstart.row hstored hx
        exact absurd (hof.step_eq hof' hs hs' ▸ hfact) hnofact
    barrier := fun hu x hx y hy hyx hlt => by
      rcases (hitems x).1 hx with hx | hx
      · rcases (hitems y).1 hy with hy | hy
        · exact h.barrier hu x hx y hy hyx hlt
        · obtain ⟨hyrun, hyk, _⟩ := hstart.row hstored hy
          have := hstart.last hstored h hy hx (hyx.symm.trans hyrun)
          omega
      · obtain ⟨hxrun, hxk, _⟩ := hstart.row hstored hx
        rcases (hitems y).1 hy with hy | hy
        · exact hstart.completed h.toShape hu hy (hyx.trans hxrun) (hxk ▸ hlt)
        · have := (hstart.row hstored hy).2.1
          omega
    opened := fun x hx hnot => by
      rcases (hitems x).1 hx with hx | hx
      · exact h.opened x hx hnot
      · obtain ⟨hxrun, hxk, _⟩ := hstart.row hstored hx
        rw [hxrun, hxk] at hnot
        exact absurd hstart.starting hnot
    enrolled := fun x hx ho hq hnot => by
      rcases (hitems x).1 hx with hx | hx
      · exact h.enrolled x hx ho (hq.imp_left (hstart.queued_old hstored hitems hqueued hx)) fun hin => hnot (.inl hin)
      · have hq := hq.resolve_right (hstart.not_isAttempted hstored hitems h.toShape hx)
        obtain ⟨m, hm, hid⟩ := hstored.enrolled hids x hx (hstart.queued_new hstored hitems hqueued h.toShape hx hq) ho
        exact absurd (.inr ⟨(hstart.row hstored hx).1, m, hm, hid⟩) hnot
    filled := fun s hs hk hnot => (h.filled s hs hk hnot).imp_right (Or.imp_left (Exists.imp fun _ => And.imp_left hmem))
    together := fun hu s hs hm y hy hof => by
      rcases (hitems y).1 hy with hy | hy
      · exact (h.together hu s hs hm y hy hof).imp_right (Or.imp_left .inl)
      · -- A member of the step would be a work item of the stage.
        obtain ⟨m, hm, hofm⟩ := hm
        obtain ⟨s', hs', hofm', x, hx, _, hsx, _⟩ := h.member m hm
        obtain rfl := step_eq hs hs' (hofm.1.symm.trans hofm'.1) (hofm.2.2.symm.trans hofm'.2.2)
        obtain ⟨hyrun, hyk, _⟩ := hstart.row hstored hy
        exact absurd (hsx.2.1.trans (hof.2.1.symm.trans hyk))
          (hstart.vacant x hx (hsx.1.trans (hof.1.symm.trans hyrun)))
    released := fun x hx item hitem hdone hnot => by
      rcases (hitems x).1 hx with hx | hx
      · refine (h.released x hx item hitem (fun d hd => ?_) hnot).imp_left (Or.imp_left fun hq => (hqueued _).2 (.inl hq))
        obtain ⟨hd', y, hy, hyd, hyrun⟩ := hdone d hd
        obtain ⟨r, hr, hrd⟩ := id hd'
        obtain ⟨⟨z, hz, hzd⟩, _⟩ := h.rooted.completed r hr
        have hyz : y = z := Table.eq_of_clash hy (hmem hz) (by simp [Schema.workItems, hyd, hzd, hrd])
        exact ⟨hd', y, hyz ▸ hz, hyd, hyrun⟩
      · refine .inl (.inl ((hqueued _).2 (.inr ?_)))
        refine (hstored.queues_iff hids x hx item hitem).2 fun d hd y hy hyd => ?_
        -- The work item that it waits for is new and has not completed.
        obtain ⟨r, hr, hrd⟩ := (hdone d hd).1
        obtain ⟨⟨z, hz, hzd⟩, _⟩ := h.rooted.completed r hr
        exact hstart.id_new hstored hitems hy hz (hzd.trans (hrd.trans hyd.symm)) }

theorem HandlerStep.queueStage (h : Settled rt u p w) :
    HandlerStep rt u w (withStage w items constraints queued) where
  enqueued id hid := by
    rcases (hqueued id).1 hid with hid | ⟨q, hq, rfl⟩
    · exact .inl hid
    · obtain ⟨x, hx, hxq⟩ := hstored.queued q hq
      exact .inr (hxq ▸ hstart.not_isAttempted hstored hitems h.toShape hx)
  inserted x hx := by
    refine ((hitems x).1 hx).imp_right fun hx => ?_
    obtain ⟨hxrun, hxk, _, _, _, s', hs', hof', _, _, hnofact⟩ := hstart.row hstored hx
    rw [hxrun, hxk]
    refine ⟨fun y hy hyx => lt_of_le_of_ne (hstart.last hstored h hx hy hyx) (hstart.vacant y hy hyx), ?_, ?_⟩
    · exact fun s hs hsrun hlt => hstart.earlier s hs hsrun hlt
    · refine ⟨fun s hs hof hfact => hnofact (hof.step_eq hof' hs hs' ▸ hfact), run, records, rfl, ?_, hx, ?_, hitems⟩
      · obtain ⟨codeVersion, timestamp, hrecords⟩ := hstored.source
        exact ⟨result, codeVersion, timestamp, hstart.compiled, hrecords⟩
      · exact fun y hy => (hstart.row hstored hy).imp_right And.left
  barrier hu x hx := by
    rcases (hitems x).1 hx with hx | hx
    · exact .inl ⟨hx, hstart.queued_old hstored hitems hqueued hx⟩
    · obtain ⟨hxrun, hxk, _⟩ := hstart.row hstored hx
      refine .inr fun y hy hyx hlt => ?_
      rcases (hitems y).1 hy with hy | hy
      · exact hstart.completed h.toShape hu hy (hyx.trans hxrun) (hxk ▸ hlt)
      · have := (hstart.row hstored hy).2.1
        omega
  published _ _ _ := .inl
  activations := .inl rfl
  items x hx := (hitems x).2 (.inl hx)
  steps _ := id
  completed _ := id
  dead _ := id

end Queue

end GoEtl.Controller
