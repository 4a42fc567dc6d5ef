import GoEtl.Controller.Reports

/-!
# Submissions

What the handler of submissions does in its turn. It writes the project, the workflow and the run, then the
steps of the run, the work items of the first stage and their memberships, and closes the steps that have no
work items. **`submitWorkflowHandler_safe`**: when it answers with an acknowledgement, nothing is left to do.
-/

namespace GoEtl.Controller

open Library Persistence Workflow

variable {rt : Runtime} {u : Prop} {p : Pending} {w t : World} {run : WorkflowRunRecord}

/-! ### The rows of a run -/

/-- A call that writes projects, workflows or stage rows. -/
theorem catalog_records {context : String} {m : Input → StoreTx Unit}
    (hm : ∀ i db a db', m i db = .ok (a, db') → ∃ projects workflows stages,
      db' = { db with projects := projects, workflows := workflows, workflowStages := stages })
    (h : Settled rt u p w) :
    Records rt u (withContext context (call rt m))
      (fun _ t => Settled rt u p t ∧ t.db.workflowInstances = w.db.workflowInstances) (fun _ t => Settled rt u p t) w := by
  refine withContext_safe (call_safe RecordStep.refl ?_ fun _ _ => h.interference) fun _ _ => id
  intro i t ht a db' hwrite
  obtain ⟨projects, workflows, stages, rfl⟩ := hm i t.db a db' hwrite
  refine ⟨⟨.of_same rfl rfl rfl (fun _ _ => id) (fun _ => id) (fun _ => id) fun _ => id, ?_⟩, (h.interference ht).catalog _ _ _,
    ht.worked.instances⟩
  exact ⟨rfl, rfl, rfl, rfl, rfl, fun _ => id, fun _ _ => id, fun _ => id, fun _ => .inl⟩

/-- A run that is created is there, and nothing has to be done for it. -/
theorem createWorkflowRun_records {context : String} (h : Settled rt u p w) (hrun : Admissible rt u run) :
    Records rt u (withContext context (call rt fun i => createWorkflowRun i.fk run))
      (fun _ t => Settled rt u p t ∧ run ∈ t.db.workflowInstances) (fun _ t => Settled rt u p t) w := by
  refine withContext_safe (call_safe RecordStep.refl ?_ fun _ _ => h.interference) fun _ _ => id
  intro i t ht _ db' hwrite
  replace h := h.interference ht
  obtain ⟨_, ⟨hold, rfl⟩ | ⟨table, hinsert, rfl⟩⟩ := createWorkflowRun_ok hwrite
  · exact ⟨.refl t, h, hold⟩
  · refine ⟨⟨.insertRun hinsert, ?_⟩, h.insertRun hinsert hrun, (Table.mem_insert hinsert).2 (.inr rfl)⟩
    exact ⟨rfl, rfl, rfl, rfl, rfl, fun _ => id, fun _ _ => id, fun _ => marked_insert_mono hinsert,
      fun r hr => .inl ((Table.mem_insert hinsert).2 (.inl hr))⟩

/-- A run with its own row as it was submitted is not marked. -/
theorem Admissible.not_marked (h : Admissible rt u run) (hrun : run ∈ w.db.workflowInstances) :
    ¬ Marked w.db run.id rt := by
  rintro ⟨r, hr, hid, plan, hplan, _⟩
  rw [run_eq hr hrun hid, legacy_of_fresh h.fresh] at hplan
  cases hplan

/-! ### The steps of a run -/

/-- **A run whose first stage may be started**: it has its steps, and nothing else is recorded of it. -/
structure Planned (w : World) (run : WorkflowRunRecord) (stages : List Stage) : Prop where
  created : run ∈ w.db.workflowInstances
  steps : ∀ step, step ∈ stageSteps stages ↔ ∃ s ∈ w.db.dependencySteps, s.runId = run.id ∧ stageStep s = step
  unpublished : ∀ i, ¬ HasFact w.db run.id i
  vacant : ∀ x ∈ w.db.workItems, x.runId ≠ run.id

theorem Planned.interference {stages : List Stage} (h : Planned w run stages) (ht : Interference w t) :
    Planned t run stages := by
  obtain ⟨hcreated, hsteps, hunpublished, hvacant⟩ := h
  constructor
  · rwa [ht.worked.instances]
  · rwa [ht.worked.steps]
  · simpa only [HasFact, ht.worked.facts] using hunpublished
  · rwa [ht.worked.items]

/-- What is pending while the first stage of a run is being started. -/
def Pending.initial (runId : String) : Pending :=
  { Pending.none with follow := {(runId, 0)}, starting := {(runId, 0)} }

section Plan

variable {workflow : WorkflowDefinition} {stages : List Stage}

/-- The steps of a run that had none. -/
theorem insertSteps_planned {createdAt : String} {fk : Bool} {db' : Store} (h : Settled rt u .none w)
    (hrun : run ∈ w.db.workflowInstances) (hnone : ¬ HasPlan w.db run.id)
    (hworkflow : rt.admittedWorkflow run = .ok workflow) (hstages : normalizeStages workflow = .ok stages)
    (hwrite : insertWorkflowDependencySteps fk (dependencyStepRecords run.id createdAt stages) w.db = .ok ((), db')) :
    AdvanceStep rt u w { w with db := db' } ∧ Settled rt u (.initial run.id) { w with db := db' } ∧
      Planned { w with db := db' } run stages := by
  have hno : ∀ s ∈ w.db.dependencySteps, s.runId ≠ run.id := fun s hs hid => hnone ⟨⟨run, hrun, rfl⟩, s, hs, hid⟩
  have hvacant : ∀ x ∈ w.db.workItems, x.runId ≠ run.id := fun x hx hid => by
    obtain ⟨s, hs, hof⟩ := h.item x hx
    exact hno s hs (hof.1.symm.trans hid)
  have hunpublished : ∀ i, ¬ HasFact w.db run.id i := fun i hfact => by
    obtain ⟨s, hs, hid, _⟩ := h.fact _ _ hfact
    exact hno s hs hid
  obtain ⟨table, hsteps, rfl⟩ : ∃ table : Table Schema.dependencySteps,
      (∀ s, s ∈ table ↔ s ∈ w.db.dependencySteps ∨ s ∈ dependencyStepRecords run.id createdAt stages) ∧
        db' = { w.db with dependencySteps := table } := by
    obtain ⟨rfl, hall⟩ | hnew := insertWorkflowDependencySteps_ok hwrite
    · exact ⟨w.db.dependencySteps, fun s => (or_iff_left_of_imp (hall s)).symm, rfl⟩
    · exact hnew
  have hsettled := h.insertSteps hrun hno hsteps hworkflow hstages
  refine ⟨⟨.insertSteps hsteps, fun _ => id, rfl, fun _ => id⟩, hsettled.mono ?_, hrun, fun step => ⟨fun hstep => ?_, ?_⟩,
    hunpublished, hvacant⟩
  · refine ⟨Set.empty_subset _, ?_, subset_rfl, subset_rfl, subset_rfl⟩
    simp [Pending.initial, Pending.none]
  · obtain ⟨stage, hstage, hstep⟩ := List.mem_flatMap.1 hstep
    exact ⟨_, (hsteps _).2 (.inr (mem_dependencyStepRecords.2 ⟨stage, hstage, step, hstep, rfl⟩)), rfl, rfl⟩
  · rintro ⟨s, hs, hid, rfl⟩
    rcases (hsteps s).1 hs with hs | hs
    · exact absurd hid (hno s hs)
    · obtain ⟨stage, hstage, step, hstep, rfl⟩ := mem_dependencyStepRecords.1 hs
      exact List.mem_flatMap.2 ⟨stage, hstage, hstep⟩

/-- **The plan of a new run** makes its first stage pending. -/
theorem createWorkflowDependencyPlan_safe (hrt : rt.Lawful) {workflowId : String} (h : Settled rt u .none w)
    (hrun : run ∈ w.db.workflowInstances) (hworkflow : rt.admittedWorkflow run = .ok workflow)
    (hstages : normalizeStages workflow = .ok stages) :
    (createWorkflowDependencyPlan rt run.id workflowId stages).Safe Interference (AdvanceStep rt u)
      (fun _ t => Settled rt u (.initial run.id) t ∧ Planned t run stages) (fun _ _ => True) w := by
  refine Prog.Safe.bind (Prog.Safe.ofExcept (fun _ _ => ?_) fun _ _ => trivial)
  refine Reads.bind (query_reads (Q := fun _ _ => True) fun _ _ => trivial) AdvanceStep.refl (fun _ _ _ => trivial) ?_
  rintro (_ | _) t₁ h₁ -
  · trivial
  refine Reads.bind (getWorkflowDependencyState_reads (h.interference h₁).rooted) AdvanceStep.refl (fun _ _ _ => trivial) ?_
  rintro (_ | _) t₂ h₂ hd
  swap
  · trivial
  refine Prog.Safe.bind (Prog.Safe.ofExcept (fun _ _ => ?_) fun _ _ => trivial)
  refine Prog.Safe.bind (Prog.Safe.ofExcept (fun _ _ => ?_) fun _ _ => trivial)
  refine Prog.Safe.bind ((call_safe (Q := fun _ t => Settled rt u (.initial run.id) t ∧ Planned t run stages)
    (E := fun _ _ => True) AdvanceStep.refl (fun i t ht _ db' hwrite => ?_) fun _ _ _ => trivial).mono ?_ fun _ _ => id)
  · have hall := (h₁.trans _ _ _ h₂).trans _ _ _ ht
    have hnone : ¬ HasPlan t.db run.id := fun hplan => hd (by rwa [HasPlan, ← ht.worked.instances, ← ht.worked.steps])
    exact insertSteps_planned (h.interference hall) (by rwa [hall.worked.instances]) hnone hworkflow hstages hwrite
  · rintro _ t₃ ⟨h₃, hplanned⟩
    refine (Records.runs (setWorkflowDependencyState_records hrt h₃)).mono ?_ fun _ _ _ => trivial
    rintro _ t₄ ⟨⟨h₄, _, hsame, _⟩, _⟩
    exact ⟨h₄, hplanned.interference (hsame (by simp [initialPlan]))⟩

/-! ### The first stage -/

variable {result : CompileStageResult}

theorem Planned.hasStage (hp : Planned w run stages) (hstages : normalizeStages workflow = .ok stages)
    (hin : InStage stages 0 result) : HasStage w.db run.id 0 := by
  obtain ⟨stage, hstage, hindex, _⟩ := hin.workItem
  have hstaged := normalizeStages_staged hstages
  obtain ⟨step, hstep⟩ := List.exists_mem_of_ne_nil _ (hstaged.nonempty stage hstage)
  obtain ⟨s, hs, hid, rfl⟩ := (hp.steps step).1 (List.mem_flatMap.2 ⟨stage, hstage, hstep⟩)
  exact ⟨s, hs, hid, (hstaged.stage stage hstage _ hstep).trans hindex⟩

/-- There is no stage before the first. -/
theorem Planned.first (hp : Planned w run stages) (hstages : normalizeStages workflow = .ok stages)
    {s : WorkflowDependencyStepRecord} (hs : s ∈ w.db.dependencySteps) (hid : s.runId = run.id) : 0 ≤ s.stageIndex :=
  (normalizeStages_staged hstages).stageIndex_nonneg ((hp.steps (stageStep s)).2 ⟨s, hs, hid, rfl⟩)

theorem Planned.startable (hp : Planned w run stages) (hrun : Admissible rt u run)
    (hstages : normalizeStages workflow = .ok stages) (hin : InStage stages 0 result) (hcompiled : CompiledFor rt run result) :
    Startable rt (.initial run.id) w run 0 result where
  created := hp.created
  alive := hrun.not_marked hp.created
  compiled := hcompiled
  stage := hin.step_rows hstages hp.steps
  starting := rfl
  only _ := id
  begun hne := absurd rfl hne
  vacant x hx hid := absurd hid (hp.vacant x hx)
  unpublished _ _ hid _ hfact := absurd (hid ▸ hfact) (hp.unpublished _)
  earlier _ hs hid hlt := absurd hlt (not_lt.2 (hp.first hstages hs hid))

end Plan

section First

variable {workflow : WorkflowDefinition} {stages : List Stage} {result : CompileStageResult} {records : StageRecords}
  {codeVersion timestamp : String}

/-- **A first stage with its work items and members**, of which no output is recorded. -/
structure Begun (rt : Runtime) (w t : World) (run : WorkflowRunRecord) (records : StageRecords) : Prop where
  queued : ∃ t₁, Queues w t₁ records ∧ Frame rt t₁ t
  unpublished : ∀ i, ¬ HasFact t.db run.id i
  touched : records.memberships ≠ [] → Touched t.db run.id 0

theorem Queues.refl (w : World) (hitems : records.items = []) : Queues w w records :=
  ⟨fun x => by simp [hitems], rfl, rfl, rfl, rfl, rfl, rfl⟩

theorem queueInitialStage_safe (hrt : rt.Lawful) (h : Settled rt u (.initial run.id) w) (hrun : Admissible rt u run)
    (hstart : Startable rt (.initial run.id) w run 0 result) (hunpublished : ∀ i, ¬ HasFact w.db run.id i)
    (hstored : StoredAs rt run.id result records) :
    (queueInitialStage rt run.id records).Safe Interference (AdvanceStep rt u)
      (fun _ t => Settled rt u (.initial run.id) t ∧ Begun rt w t run records) (fun _ _ => True) w := by
  by_cases hitems : records.items = []
  · have hmemberships : records.memberships = [] := by
      refine List.eq_nil_iff_forall_not_mem.2 fun m hm => ?_
      obtain ⟨x, hx, _⟩ := hstored.member m hm
      rw [hitems] at hx
      cases hx
    simp only [queueInitialStage, queueInitialItems, hitems, hmemberships, List.isEmpty_nil, if_true]
    exact ⟨h, ⟨w, .refl w hitems, .refl w⟩, hunpublished, fun hne => absurd hmemberships hne⟩
  · simp only [queueInitialStage, queueInitialItems, List.isEmpty_iff, if_neg hitems]
    refine Prog.Safe.bind ((queueWorkItems_safe hstart hstored hrun h).mono ?_ fun _ _ _ => trivial)
    rintro _ t₁ ⟨h₁, hq, -⟩
    refine (Records.runs (recordMemberships_records hrt records.memberships h₁ fun m hm => ?_)).mono ?_ fun _ _ _ => trivial
    · obtain ⟨s, x, hm, _⟩ := hstart.enrollable hstored hrun h.toShape hq hm
      exact ⟨s, x, hm⟩
    · rintro _ t ⟨⟨ht, htouched, hfacts⟩, hframe⟩
      refine ⟨ht.mono ⟨subset_rfl, subset_rfl, subset_rfl, ?_, subset_rfl⟩, ⟨t₁, hq, hframe⟩, fun i hfact => ?_, fun hne => ?_⟩
      · rintro a ⟨ha | ha, hnot⟩
        · exact ha
        · exact absurd ha hnot
      · rw [HasFact, hfacts, hq.facts] at hfact
        exact hunpublished i hfact
      · obtain ⟨m, hm⟩ := List.exists_mem_of_ne_nil _ hne
        obtain ⟨_, _, _, hmk⟩ := hstart.enrollable hstored hrun h.toShape hq hm
        exact hmk ▸ htouched m hm

section Begun

variable (hb : Begun rt w t run records) (hp : Planned w run stages) (hstages : normalizeStages workflow = .ok stages)
  (hin : InStage stages 0 result) (hstart : Startable rt p w run 0 result) (hstored : StoredAs rt run.id result records)
  (h : Shape rt u w)

include hb hp

/-- The work items of the run are those of its first stage. -/
theorem Begun.items {x : WorkItemRecord} (hx : x ∈ t.db.workItems) (hid : x.runId = run.id) : x ∈ records.items := by
  obtain ⟨t₁, hq, hframe⟩ := hb.queued
  exact ((hq.items x).1 (hframe.items ▸ hx)).resolve_left fun hx => hp.vacant x hx hid

include hstart hstored h

/-- The work items of a first stage that was begun have not ended. -/
theorem Begun.unfinished {x : WorkItemRecord} (hx : x ∈ t.db.workItems) (hid : x.runId = run.id) :
    ¬ IsCompleted t.db x.id ∧ ¬ IsFailed t.db x.id := by
  have hk := (hstart.row hstored (hb.items hp hx hid)).2.1
  obtain ⟨t₁, hq, hframe⟩ := hb.queued
  rw [IsCompleted, IsFailed, hframe.completed, hframe.failed]
  exact hstart.not_isCompleted hstored h hq (hframe.items ▸ hx) hid hk

include hstages hin

theorem Begun.emptiable : Emptiable rt (.initial run.id) t run.id 0 result := by
  obtain ⟨t₁, hq, hframe⟩ := id hb.queued
  have hsteps : t.db.dependencySteps = w.db.dependencySteps := hframe.steps.trans hq.steps
  refine ⟨?_, rfl, rfl, fun s hs hid hlt => ?_, fun s _ hid _ hfact => hb.unpublished _ (hid ▸ hfact),
    fun x hx hid _ => (hb.unfinished hp hstart hstored h hx hid).1, fun s hs hid hk x hx hof hnone => ?_⟩
  · rw [HasStage, hsteps]
    exact hp.hasStage hstages hin
  · exact absurd hlt (not_lt.2 (hp.first hstages (hsteps ▸ hs) hid))
  · -- A work item of the step is a row of the stage, and so was compiled for the step.
    obtain ⟨_, _, i, hi, _, s', hs', hof', hindex, _⟩ := hstart.row hstored (hb.items hp hx (hof.1.trans hid))
    obtain rfl := hof.step_eq hof' (hsteps ▸ hs) hs'
    exact hnone i hi hindex.symm

end Begun

/-- A step without an output whose work items have not completed is not done. -/
theorem Shape.not_stepDone {s : WorkflowDependencyStepRecord} (h : Shape rt u w) (hs : s ∈ w.db.dependencySteps)
    (hfact : ¬ HasFact w.db s.runId s.stepIndex)
    (hunfinished : ∀ x ∈ w.db.workItems, ItemOf rt s x → ¬ IsCompleted w.db x.id) : ¬ StepDone w.db s := by
  rintro (hdone | ⟨⟨m, hm, hof⟩, hdone⟩)
  · exact hfact hdone
  · obtain ⟨s', hs', hof', x, hx, hid, hitem, _⟩ := h.member m hm
    obtain rfl := step_eq hs hs' (hof.1.symm.trans hof'.1) (hof.2.2.symm.trans hof'.2.2)
    exact hunfinished x hx hitem (hid ▸ hdone m hm hof)

/-- A run whose work items have not failed has failed only if it is marked. -/
theorem Shape.marked_of_dead {runId : String} (h : Shape rt u w) (hdead : Dead w.db runId rt)
    (hunfailed : ∀ x ∈ w.db.workItems, x.runId = runId → ¬ IsFailed w.db x.id) : Marked w.db runId rt := by
  refine hdead.resolve_right ?_
  rintro ⟨m, hm, hrun, hfailed⟩
  obtain ⟨s, _, hof, x, hx, hid, hitem, _⟩ := h.member m hm
  exact hunfailed x hx (hitem.1.trans (hof.1.symm.trans hrun)) (hid ▸ hfailed)

theorem Pending.initial_le_all (runId : String) : Pending.initial runId ≤ .all runId := by
  refine ⟨?_, ?_, Set.empty_subset _, Set.empty_subset _, Set.empty_subset _⟩ <;>
    · rintro _ rfl
      rfl

/-- **The first stage is started**: nothing is pending, or it had no work items and the next one is to follow. -/
theorem markInitial_safe (hrt : rt.Lawful) (h : Settled rt u (.initial run.id) w) (hp : Planned w run stages)
    (hrun : Admissible rt u run) (hstages : normalizeStages workflow = .ok stages) (hin : InStage stages 0 result)
    (hcompiled : CompiledFor rt run result)
    (hrecords : persistenceRecordsFromCompiledStageResults rt run.id result codeVersion timestamp = .ok records)
    (hsettled : Settled rt u (.initial run.id) t) (hb : Begun rt w t run records) :
    (markCompiledStageEmptyStepsCompleted rt run.id result).Safe Interference (AdvanceStep rt u)
      (fun b t => Settled rt u (if b then .following run.id 0 else .none) t) (fun _ _ => True) t := by
  have hstored := persistenceRecords_storedAs hrt hrecords
  have hstart := hp.startable hrun hstages hin hcompiled
  have he := hb.emptiable hp hstages hin hstart hstored h.toShape
  refine (Records.runs (markCompiledStageEmptyStepsCompleted_records hrt hsettled he hin.stageIndex)).mono ?_
    fun _ _ _ => trivial
  rintro b t' ⟨⟨ht', hclosed⟩, hframe⟩
  have hunfinished : ∀ x ∈ t.db.workItems, x.runId = run.id → ¬ IsCompleted t.db x.id ∧ ¬ IsFailed t.db x.id :=
    fun x hx hid => hb.unfinished hp hstart hstored h.toShape hx hid
  by_cases hdead : Dead t.db run.id rt
  · -- A run that is marked is left as it is.
    have hmarked := hframe.marked _ (hsettled.marked_of_dead hdead fun x hx hid => (hunfinished x hx hid).2)
    exact ((ht'.mono (Pending.initial_le_all run.id)).forget hmarked).mono (Pending.none_le _)
  · obtain ⟨_, hfacts, hall⟩ := hclosed hdead
    obtain ⟨t₁, hq, hframe₁⟩ := hb.queued
    have hsteps : t.db.dependencySteps = w.db.dependencySteps := hframe₁.steps.trans hq.steps
    have hfilled : ∀ s ∈ t'.db.dependencySteps, s.runId = run.id → s.stageIndex = 0 →
        HasFact t'.db s.runId s.stepIndex ∨ (∃ x ∈ t'.db.workItems, ItemOf rt s x) ∨ Marked t'.db s.runId rt := by
      intro s hs hid hk
      rw [hframe.steps] at hs
      by_cases hnone : NoneFor result s
      · exact .inl ((hfacts s hs hid hk).2 hnone)
      · obtain ⟨x, hx, hof⟩ := hstart.exists_item hstored (hsteps ▸ hs) hid hk hnone
        refine .inr (.inl ⟨x, ?_, hof⟩)
        rw [hframe.items, hframe₁.items]
        exact (hq.items x).2 (.inr hx)
    have htouched : Touched t'.db run.id 0 := by
      obtain ⟨s, hs, hid, hk⟩ := he.has
      by_cases hnone : NoneFor result s
      · exact ⟨s, hframe.steps ▸ hs, hid, hk, .inl ((hfacts s hs hid hk).2 hnone)⟩
      · obtain ⟨x, hx, _⟩ := hstart.exists_item hstored (hsteps ▸ hs) hid hk hnone
        refine hframe.touched (hb.touched ?_)
        exact hrun.visible result hcompiled codeVersion timestamp records hrecords (List.ne_nil_of_mem hx)
    have hstarted := ht'.started (fun a ha => ha) (.inl htouched) hfilled
    cases b with
    | true => exact hstarted
    | false =>
      have hsome : ¬ ∀ s ∈ t.db.dependencySteps, s.runId = run.id → s.stageIndex = 0 → NoneFor result s := by
        simpa using hall
      push Not at hsome
      obtain ⟨s, hs, hid, hk, hnone⟩ := hsome
      refine hstarted.unfollow (F := ∅) fun a ha => ?_
      obtain rfl : a = (run.id, 0) := ha
      refine .inr fun hdone => absurd (hdone.2 s (hframe.steps ▸ hs) hid hk) ?_
      refine ht'.not_stepDone (hframe.steps ▸ hs) (mt (hfacts s hs hid hk).1 hnone) fun x hx hof => ?_
      rw [hframe.isCompleted]
      exact (hunfinished x (hframe.items ▸ hx) (hof.1.trans hid)).1

/-- **The first stage of a new run** leaves nothing to do. -/
theorem startRun_safe (hrt : rt.Lawful) {submission : Submission} (h : Settled rt u .none w)
    (hcreated : submission.run ∈ w.db.workflowInstances) (hrun : Admissible rt u submission.run)
    (hworkflow : rt.admittedWorkflow submission.run = .ok workflow)
    (hinitial : compileInitialStage rt submission.run workflow = .ok (some (stages, result))) :
    (startRun rt submission codeVersion stages result).Safe Interference (AdvanceStep rt u)
      (fun _ t => Settled rt u .none t) (fun _ _ => True) w := by
  obtain ⟨hstages, hin⟩ := compileInitialStage_ok hinitial
  have hcompiled : CompiledFor rt submission.run result := ⟨workflow, hworkflow, .inr ⟨stages, hinitial⟩⟩
  refine Prog.Safe.bind ((withContext_safe (E := fun _ _ => True)
    (createWorkflowDependencyPlan_safe hrt h hcreated hworkflow hstages) fun _ _ => id).mono ?_ fun _ _ => id)
  rintro _ t₁ ⟨h₁, hp⟩
  refine Prog.Safe.bind (Prog.Safe.ofExcept (fun records hrecords => ?_) fun _ _ => trivial)
  have hstart := hp.startable hrun hstages hin hcompiled
  refine Prog.Safe.bind ((queueInitialStage_safe hrt h₁ hrun hstart hp.unpublished
    (persistenceRecords_storedAs hrt hrecords)).mono ?_ fun _ _ => id)
  rintro _ t₂ ⟨h₂, hb⟩
  refine Prog.Safe.bind ((markInitial_safe hrt h₁ hp hrun hstages hin hcompiled hrecords h₂ hb).mono ?_ fun _ _ => id)
  rintro (_ | _) t₃ h₃
  · exact h₃
  · rw [hin.stageIndex]
    exact Prog.Safe.bind ((activateNextReadyWorkflowStage_safe hrt h₃).mono (fun _ _ => id) fun _ _ => id)

end First

/-- **The handler of submissions** leaves nothing to do, unless it answers with a server error. -/
theorem submitWorkflowHandler_safe (hrt : rt.Lawful) {submission : Submission} (h : Settled rt u .none w)
    (hrun : Admissible rt u submission.run) :
    Serves (AdvanceStep rt u) (submitWorkflowHandler rt submission) (Settled rt u .none) w := by
  have hsubmit : (submitAdmittedWorkflow rt submission).Safe Interference (AdvanceStep rt u)
      (fun _ t => Settled rt u .none t) (fun _ _ => True) w := by
    refine Prog.Safe.bind (Prog.Safe.ofExcept (fun workflow hworkflow => ?_) fun _ _ => trivial)
    refine Prog.Safe.bind ((Records.runs (catalog_records (fun i db _ db' hwrite => ?_) h)).mono ?_ fun _ _ _ => trivial)
    · obtain ⟨projects, rfl⟩ := upsertProject_ok hwrite
      exact ⟨_, _, _, rfl⟩
    rintro _ t₁ ⟨⟨h₁, -⟩, -⟩
    refine Prog.Safe.bind ((Records.runs (catalog_records (fun i db _ db' hwrite => ?_) h₁)).mono ?_ fun _ _ _ => trivial)
    · obtain ⟨workflows, rfl⟩ := upsertWorkflow_ok hwrite
      exact ⟨_, _, _, rfl⟩
    rintro _ t₂ ⟨⟨h₂, -⟩, -⟩
    refine Prog.Safe.bind (Prog.Safe.ofExcept (fun codeVersion _ => ?_) fun _ _ => trivial)
    refine Prog.Safe.bind (Prog.Safe.ofExcept (fun compiled hcompiled => ?_) fun _ _ => trivial)
    refine Prog.Safe.bind ((Records.runs (createWorkflowRun_records h₂ hrun)).mono ?_ fun _ _ _ => trivial)
    rintro _ t₃ ⟨⟨h₃, hcreated⟩, -⟩
    rcases compiled with _ | ⟨stages, result⟩
    · exact h₃
    refine Prog.Safe.bind ((Records.runs (catalog_records (fun i db _ db' hwrite => ?_) h₃)).mono ?_ fun _ _ _ => trivial)
    · obtain ⟨stages, _, rfl⟩ := insertStagePlan_ok hwrite
      exact ⟨_, _, _, rfl⟩
    rintro _ t₄ ⟨⟨h₄, hsame⟩, -⟩
    exact startRun_safe hrt h₄ (hsame ▸ hcreated) hrun (wrapError_ok.1 hworkflow) hcompiled
  refine Prog.Safe.bind (Prog.Safe.attempt (hsubmit.mono ?_ ?_))
  · exact fun _ _ ht _ => ht
  · exact fun _ _ _ hgood => absurd rfl (hgood _)

end GoEtl.Controller
