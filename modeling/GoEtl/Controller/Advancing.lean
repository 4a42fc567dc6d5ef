import Mathlib.Data.Finset.Card
import GoEtl.Controller.Dependents

/-!
# Activating stages

`activateNextReadyWorkflowStage` activates the stage after a completed one, and goes on to the next stage as
long as the activated one was compiled to no work items. For one stage it begins the activation, compiles the
stage, records the output of the steps that have no work items, and queues the others' work items with
their memberships. **`activateStage_safe`** says where that leads, and
**`activateNextReadyWorkflowStage_safe`** that nothing is pending after the loop. The loop has a bound in the
model; it is reached only when there is no stage left (`laterStages`).
-/

namespace GoEtl.Controller

open Library Persistence Workflow

variable {rt : Runtime} {u : Prop} {p : Pending} {w t : World} {runId : String} {plan : DependencyPlan}
variable {k : ℤ} {result : CompileStageResult}

/-! ### The steps of a stage in a plan -/

/-- The steps that a plan has in a stage are derived from the rows of the stage. -/
theorem Derived.stage_steps (hd : Derived w.db runId rt (some plan)) {stage : DependencyStage}
    (hstage : findDependencyStage plan k = some stage) :
    ∃ r ∈ w.db.workflowInstances, r.id = runId ∧ ∃ seen : Observations, ShowsTerminal w.db runId seen.terminal ∧
      ∀ step, step ∈ stage.steps ↔ ∃ s ∈ w.db.dependencySteps, s.runId = runId ∧ s.stageIndex = k ∧
        step = (rowsOfStep w.db runId s).derive runId (legacyWorkflowDependencyPlan rt r.submissionContextJson) seen := by
  obtain ⟨run, hrun, rfl, seen, hseen, hplan⟩ := hd
  refine ⟨run, hrun, rfl, seen, hseen, fun step => ?_⟩
  rw [(reconstructPlan_ok.1 hplan).1] at hstage
  obtain ⟨_, reason, rfl⟩ := findDependencyStage_derivePlan hstage
  rw [deriveStage_steps, List.mem_map]
  simp only [mem_rowsOfStage, and_assoc, eq_comm (b := step)]
  exact exists_stepRows

/-- No stage of a plan of a run that has not failed has failed. -/
theorem Derived.stage_not_failed (h : Shape rt u w) (hd : Derived w.db runId rt (some plan))
    (halive : ¬ Dead w.db runId rt) : ∀ stage ∈ plan.stages, stage.state ≠ .failed := by
  intro stage hstage hfailed
  refine halive ((hd.failed_iff h).1 ?_)
  obtain ⟨run, _, _, seen, _, rfl⟩ := hd.of_alive h halive
  exact deriveDependencyWorkflowState_failed.2 ⟨stage, hstage, hfailed⟩

/-! ### Steps without work items -/

/-- No work item was compiled for the step. -/
def NoneFor (result : CompileStageResult) (s : WorkflowDependencyStepRecord) : Prop :=
  ∀ i ∈ result.workItems, i.stepIndex ≠ s.stepIndex

/-- **A stage whose empty steps may be closed**: it is being started, all earlier steps have their outputs and
its own steps have none, and its work items are compiled ones that have not completed. -/
structure Emptiable (rt : Runtime) (p : Pending) (w : World) (runId : String) (k : ℤ) (result : CompileStageResult) :
    Prop where
  has : HasStage w.db runId k
  starting : (runId, k) ∈ p.starting
  follow : (runId, k) ∈ p.follow
  before : ∀ s ∈ w.db.dependencySteps, s.runId = runId → s.stageIndex < k → HasFact w.db s.runId s.stepIndex
  unpublished : ∀ s ∈ w.db.dependencySteps, s.runId = runId → s.stageIndex = k → ¬ HasFact w.db s.runId s.stepIndex
  unfinished : ∀ x ∈ w.db.workItems, x.runId = runId → x.stageIndex = k → ¬ IsCompleted w.db x.id
  compiled : ∀ s ∈ w.db.dependencySteps, s.runId = runId → s.stageIndex = k → ∀ x ∈ w.db.workItems, ItemOf rt s x →
    ¬ NoneFor result s

theorem Emptiable.interference (h : Emptiable rt p w runId k result) (ht : Interference w t) :
    Emptiable rt p t runId k result := by
  obtain ⟨s, hs⟩ := exists_eq_of_carried ht.worked.carried
  have hcompleted := ht.worked.completed
  obtain ⟨db, activations⟩ := t
  obtain rfl : db = _ := hs
  refine ⟨h.has, h.starting, h.follow, h.before, h.unpublished, fun x hx hrun hk => ?_, h.compiled⟩
  rw [IsCompleted, hcompleted]
  exact h.unfinished x hx hrun hk

section Empty

variable {s : WorkflowDependencyStepRecord}

theorem Emptiable.publishable (he : Emptiable rt p w runId k result) (hs : s ∈ w.db.dependencySteps)
    (hrun : s.runId = runId) (hk : s.stageIndex = k) (hnone : NoneFor result s) : Publishable rt u p w s where
  step := hs
  may := by
    subst hrun hk
    exact .inr (.inr ⟨he.starting, he.before⟩)
  follow := by
    subst hrun hk
    exact .inr (.inr he.follow)
  done _ := .inr (.inr fun x hx hof => absurd hnone (he.compiled s hs hrun hk x hx hof))

/-- The members of a stage that is being started have not completed. -/
theorem Emptiable.not_membersDone (he : Emptiable rt p w runId k result) (h : Shape rt u w)
    (hs : s ∈ w.db.dependencySteps) (hrun : s.runId = runId) (hk : s.stageIndex = k) (hmember : HasMember w.db s) :
    ¬ MembersDone w.db s := by
  intro hdone
  obtain ⟨m, hm, hof⟩ := hmember
  obtain ⟨s', hs', hof', x, hx, hid, hitem, _⟩ := h.member m hm
  obtain rfl := step_eq hs hs' (hof.1.symm.trans hof'.1) (hof.2.2.symm.trans hof'.2.2)
  refine he.unfinished x hx (hitem.1.trans hrun) (hitem.2.1.trans hk) ?_
  rw [hid]
  exact hdone m hm hof

theorem Emptiable.not_stepDone (he : Emptiable rt p w runId k result) (h : Shape rt u w)
    (hs : s ∈ w.db.dependencySteps) (hrun : s.runId = runId) (hk : s.stageIndex = k) : ¬ StepDone w.db s := by
  rintro (hfact | ⟨hmember, hdone⟩)
  · exact he.unpublished s hs hrun hk hfact
  · exact he.not_membersDone h hs hrun hk hmember hdone

/-- The steps that are closed are those that no work item was compiled for. -/
theorem Emptiable.isEmptyFanout_iff (he : Emptiable rt p w runId k result) (h : Shape rt u w)
    (hs : s ∈ w.db.dependencySteps) (hrun : s.runId = runId) (hk : s.stageIndex = k) {seen : Observations} :
    isEmptyFanout result ((rowsOfStep w.db runId s).derive runId none seen) = true ↔ NoneFor result s := by
  have hindex : ((rowsOfStep w.db runId s).derive runId none seen).stepIndex = s.stepIndex := StepRows.derive_index.2.1
  have hany : (!(result.workItems.any (·.stepIndex == ((rowsOfStep w.db runId s).derive runId none seen).stepIndex))) =
      true ↔ NoneFor result s := by
    simp only [hindex, Bool.not_eq_true', List.any_eq_false, beq_iff_eq]
    rfl
  simp only [isEmptyFanout, Bool.and_eq_true, and_assoc]
  rw [hany]
  refine ⟨And.left, fun hnone => ⟨hnone, ?_⟩⟩
  -- The step has no work items, and so no members.
  have hnil : (rowsOfStep w.db runId s).memberships = [] := by
    subst hrun
    refine List.eq_nil_iff_forall_not_mem.2 fun m hm => ?_
    obtain ⟨hm, hof⟩ := mem_rowsOfStep_memberships.1 hm
    obtain ⟨s', hs', hof', x, hx, _, hitem, _⟩ := h.member m hm
    obtain rfl := step_eq hs hs' (hof.1.symm.trans hof'.1) (hof.2.2.symm.trans hof'.2.2)
    exact he.compiled s hs rfl hk x hx hitem hnone
  have hfact : (rowsOfStep w.db runId s).fact.isSome ≠ true := by
    rw [ne_eq, rowsOfStep_fact, ← hrun]
    exact he.unpublished s hs hrun hk
  have hcompleted : ((rowsOfStep w.db runId s).derive runId none seen).state ≠ .completed := fun hstate => by
    rcases (StepRows.derive_completed.1 hstate).2 with hsome | ⟨hne, _⟩
    · exact hfact hsome
    · exact hne hnil
  have hfailed : ((rowsOfStep w.db runId s).derive runId none seen).state ≠ .failed := fun hstate => by
    obtain ⟨m, hm, _⟩ := StepRows.derive_failed.1 hstate
    rw [hnil] at hm
    cases hm
  simp [StepRows.derive_workItems, StepRows.workItems_eq, hnil, hcompleted, hfailed]

end Empty

/-- What recording the outputs of several steps changes. -/
structure PublishesAll (w t : World) (runId : String) (steps : List DependencyStep) : Prop where
  fact : ∀ e ∈ steps, HasFact t.db runId e.stepIndex
  only : ∀ i, HasFact t.db runId i → HasFact w.db runId i ∨ ∃ e ∈ steps, e.stepIndex = i
  instances : t.db.workflowInstances = w.db.workflowInstances
  members : t.db.dependencyWorkItems = w.db.dependencyWorkItems

theorem upsertEmpties_records {es : List DependencyStep} (h : Settled rt u p w)
    (hes : ∀ e ∈ es, ∃ s, s.runId = runId ∧ e.stepIndex = s.stepIndex ∧ Publishable rt u p w s) :
    Records rt u (es.forM fun step => upsertStepOutputFact rt runId step.completedEmpty .emptyFanout)
      (fun _ t => Settled rt u p t ∧ PublishesAll w t runId es) (fun _ t => Settled rt u p t) w := by
  induction es generalizing w with
  | nil => exact ⟨h, by simp, fun i => .inl, rfl, rfl⟩
  | cons e es ih =>
    rw [List.forall_mem_cons] at hes
    obtain ⟨⟨s, rfl, hindex, hs⟩, hrest⟩ := hes
    refine Records.bind (upsertStepOutputFact_records h hs (show e.completedEmpty.stepIndex = _ from hindex))
      (fun _ _ _ => id) ?_
    rintro _ t hframe ⟨ht, hpublishes⟩
    refine (ih ht fun e he => ?_).framed.mono ?_ fun _ _ ht => ht.1
    · obtain ⟨s', hrun', hindex', hs'⟩ := hrest e he
      exact ⟨s', hrun', hindex', hs'.frame hframe⟩
    · rintro _ t' ⟨⟨ht', hall⟩, hframe'⟩
      refine ⟨ht', ?_, fun i hi => ?_, hall.instances.trans hpublishes.instances, hall.members.trans hpublishes.members⟩
      · rw [List.forall_mem_cons]
        exact ⟨hindex ▸ hframe'.facts _ _ hpublishes.fact, hall.fact⟩
      · rcases hall.only i hi with hi | ⟨e', he', hi⟩
        · refine (hpublishes.only _ i hi).imp_right fun heq => ⟨e, List.mem_cons_self, ?_⟩
          rw [hindex, heq.2]
        · exact .inr ⟨e', List.mem_cons_of_mem _ he', hi⟩

/-- The run has failed before exactly if it has now. -/
theorem PublishesAll.dead_iff {es : List DependencyStep} (h : PublishesAll w t runId es) (hf : Frame rt w t) (R : String) :
    Dead t.db R rt ↔ Dead w.db R rt := by
  rw [Dead, Dead, Marked, Marked, MemberFailed, MemberFailed, h.instances, h.members]
  simp only [IsFailed, hf.failed]

section Mark

variable {stage : DependencyStage}

theorem DependencyStage.withEmptySteps_completed :
    (stage.withEmptySteps result).steps.all (·.state == .completed) = true ↔
      ∀ step ∈ stage.steps, isEmptyFanout result step = true ∨ step.state = .completed := by
  simp only [DependencyStage.withEmptySteps, List.all_map, List.all_eq_true, Function.comp_apply, beq_iff_eq]
  refine forall₂_congr fun step _ => ?_
  split
  · rename_i hempty
    simp [hempty, DependencyStep.completedEmpty]
  · rename_i hempty
    simp [hempty]

/-- Closing empty steps does not make a plan fail. -/
theorem Derived.withEmptySteps_not_failed (h : Shape rt u w) (hd : Derived w.db runId rt (some plan))
    (halive : ¬ Dead w.db runId rt) (hstage : findDependencyStage plan k = some stage) {b : Bool} :
    (if b then (plan.mapStage k fun _ => stage.withEmptySteps result).updateState
      else plan.mapStage k fun _ => stage.withEmptySteps result).state ≠ .failed := by
  have hnot := hd.stage_not_failed h halive
  split
  · simp only [DependencyPlan.updateState]
    split
    · rename_i hany
      obtain ⟨s, hs, hfailed⟩ := List.any_eq_true.1 hany
      obtain ⟨s', hs', rfl⟩ := List.mem_map.1 hs
      rw [beq_iff_eq] at hfailed
      split at hfailed
      · simp only [DependencyStage.withEmptySteps] at hfailed
        split at hfailed
        · cases hfailed
        · exact absurd hfailed (hnot stage (List.mem_of_find?_eq_some hstage))
      · exact absurd hfailed (hnot s' hs')
    · split <;> simp
  · exact fun hfailed => halive ((hd.failed_iff h).1 hfailed)

end Mark

theorem HasStage.hasPlan (h : HasStage w.db runId k) (hshape : Shape rt u w) : HasPlan w.db runId := by
  obtain ⟨s, hs, hrun, _⟩ := h
  obtain ⟨r, hr, hid⟩ := hshape.planned s hs
  exact ⟨⟨r, hr, hid.trans hrun⟩, s, hs, hrun⟩

/-- **Closing the steps without work items**: in a run that has not failed, exactly the steps that no work item
was compiled for have their outputs afterwards, and the answer is whether these are all. -/
theorem markCompiledStageEmptyStepsCompleted_records (hrt : rt.Lawful) (h : Settled rt u p w)
    (he : Emptiable rt p w runId k result) (hk : result.stageIndex = k) :
    Records rt u (markCompiledStageEmptyStepsCompleted rt runId result)
      (fun b t => Settled rt u p t ∧ (¬ Dead w.db runId rt → ¬ Dead t.db runId rt ∧
        (∀ s ∈ w.db.dependencySteps, s.runId = runId → s.stageIndex = k →
          (HasFact t.db s.runId s.stepIndex ↔ NoneFor result s)) ∧
        (b = true ↔ ∀ s ∈ w.db.dependencySteps, s.runId = runId → s.stageIndex = k → NoneFor result s)))
      (fun _ t => Settled rt u p t) w := by
  subst hk
  refine Records.after_read (getWorkflowDependencyState_reads h.rooted) (fun _ _ => h.interference) ?_
  rintro found t₁ h₁ hd
  rw [← h₁.dead_iff, ← h₁.worked.steps]
  replace h := h.interference h₁
  replace he := he.interference h₁
  clear h₁ w
  cases found with
  | none => exact absurd (he.has.hasPlan h.toShape) hd
  | some plan =>
  obtain ⟨stage, hstage⟩ := hd.exists_stage he.has
  simp only [hstage]
  obtain ⟨r, hr, hid, seen, hseen, hsteps⟩ := hd.stage_steps hstage
  -- In a run that has not failed there is no stored plan.
  have hderived : ¬ Dead t₁.db runId rt → ∀ step, step ∈ stage.steps ↔ ∃ s ∈ t₁.db.dependencySteps, s.runId = runId ∧
      s.stageIndex = result.stageIndex ∧ step = (rowsOfStep t₁.db runId s).derive runId none seen := fun halive => by
    rwa [h.legacy_none (fun hmarked => halive (.inl hmarked)) hr hid] at hsteps
  split
  · rename_i hempty
    refine ⟨h, fun halive => ⟨halive, ?_⟩⟩
    have hnone : ∀ s ∈ t₁.db.dependencySteps, s.runId = runId → s.stageIndex = result.stageIndex → ¬ NoneFor result s :=
        fun s hs hrun hk hnone => by
      have hstep := (hderived halive _).2 ⟨s, hs, hrun, hk, rfl⟩
      have hmem := List.mem_filter.2 ⟨hstep, (he.isEmptyFanout_iff h.toShape hs hrun hk).2 hnone⟩
      rw [List.isEmpty_iff.1 hempty] at hmem
      cases hmem
    refine ⟨fun s hs hrun hk => iff_of_false (he.unpublished s hs hrun hk) (hnone s hs hrun hk), ?_⟩
    obtain ⟨s, hs, hrun, hk⟩ := he.has
    simp only [Bool.false_eq_true, false_iff]
    exact fun hall => hnone s hs hrun hk (hall s hs hrun hk)
  · refine Records.bind (upsertEmpties_records h fun e hmem => ?_) (fun _ _ _ => id) ?_
    · obtain ⟨hmem, hempty⟩ := List.mem_filter.1 hmem
      obtain ⟨s, hs, hrun, hk, rfl⟩ := (hsteps e).1 hmem
      have hindex := (@StepRows.derive_index runId seen (rowsOfStep t₁.db runId s)
        (legacyWorkflowDependencyPlan rt r.submissionContextJson)).2.1
      refine ⟨s, hrun, hindex, he.publishable hs hrun hk ?_⟩
      simp only [isEmptyFanout, Bool.and_eq_true, Bool.not_eq_true', List.any_eq_false, beq_iff_eq] at hempty
      rw [hindex] at hempty
      exact hempty.1.1.1
    · rintro _ t₂ hframe ⟨ht₂, hpublishes⟩
      refine Records.bind (setWorkflowDependencyState_records hrt ht₂) (fun _ _ _ => id) ?_
      rintro _ t₃ - ⟨ht₃, _, hsame, _⟩
      refine ⟨ht₃, fun halive => ?_⟩
      have h₃ := hsame (hd.withEmptySteps_not_failed h.toShape halive hstage)
      refine ⟨?_, fun s hs hrun hk => ?_, ?_⟩
      · exact fun hdead => halive ((hpublishes.dead_iff hframe runId).1 (h₃.dead_iff.1 hdead))
      · rw [HasFact, h₃.worked.facts]
        have hmem := (hderived halive _).2 ⟨s, hs, hrun, hk, rfl⟩
        have hindex : ((rowsOfStep t₁.db runId s).derive runId none seen).stepIndex = s.stepIndex :=
          StepRows.derive_index.2.1
        constructor
        · intro hfact
          rw [hrun] at hfact
          rcases hpublishes.only _ hfact with hfact | ⟨e, hmem, hei⟩
          · exact absurd (hrun ▸ hfact) (he.unpublished s hs hrun hk)
          · obtain ⟨hmem, hempty⟩ := List.mem_filter.1 hmem
            obtain ⟨s', hs', hrun', hk', rfl⟩ := (hderived halive e).1 hmem
            obtain rfl := step_eq hs hs' (hrun.trans hrun'.symm) (hei.symm.trans StepRows.derive_index.2.1)
            exact (he.isEmptyFanout_iff h.toShape hs hrun hk).1 hempty
        · intro hnone
          rw [hrun, ← hindex]
          exact hpublishes.fact _ (List.mem_filter.2 ⟨hmem, (he.isEmptyFanout_iff h.toShape hs hrun hk).2 hnone⟩)
      · rw [DependencyStage.withEmptySteps_completed]
        constructor
        · intro hall s hs hrun hk
          rcases hall _ ((hderived halive _).2 ⟨s, hs, hrun, hk, rfl⟩) with hempty | hcompleted
          · exact (he.isEmptyFanout_iff h.toShape hs hrun hk).1 hempty
          · exact absurd ((step_completed_iff h.toShape hseen halive hrun).1 hcompleted) (he.not_stepDone h.toShape hs hrun hk)
        · intro hall step hstep
          obtain ⟨s, hs, hrun, hk, rfl⟩ := (hderived halive step).1 hstep
          exact .inl ((he.isEmptyFanout_iff h.toShape hs hrun hk).2 (hall s hs hrun hk))

/-! ### Queueing the work items of a stage -/

/-- What queueing the work items of a stage changes. -/
structure Queues (w t : World) (records : StageRecords) : Prop where
  items : ∀ x, x ∈ t.db.workItems ↔ x ∈ w.db.workItems ∨ x ∈ records.items
  instances : t.db.workflowInstances = w.db.workflowInstances
  steps : t.db.dependencySteps = w.db.dependencySteps
  members : t.db.dependencyWorkItems = w.db.dependencyWorkItems
  facts : t.db.stepOutputFacts = w.db.stepOutputFacts
  completed : t.db.completedWork = w.db.completedWork
  failed : t.db.failedWork = w.db.failedWork

section Queue

variable {run : WorkflowRunRecord} {records : StageRecords}

/-- A step of the stage that a work item was compiled for gets a row. -/
theorem Startable.exists_item (hstart : Startable rt p w run k result) (hstored : StoredAs rt run.id result records)
    {s : WorkflowDependencyStepRecord} (hs : s ∈ w.db.dependencySteps) (hrun : s.runId = run.id)
    (hk : s.stageIndex = k) (hsome : ¬ NoneFor result s) : ∃ x ∈ records.items, ItemOf rt s x := by
  simp only [NoneFor, not_forall, not_not] at hsome
  obtain ⟨i, hi, hindex⟩ := hsome
  obtain ⟨x, hx, hxrun, hxk, item, hitem, _, hid, _⟩ := hstored.compiled i hi
  obtain ⟨hik, s', hs', hrun', _, hindex', hstepId⟩ := hstart.stage i hi
  obtain rfl := step_eq hs hs' (hrun.trans hrun'.symm) (hindex.symm.trans hindex'.symm)
  exact ⟨x, hx, hxrun.trans hrun.symm, hxk.trans (hik.trans hk.symm), item, hitem, hid.trans hstepId.symm⟩

/-- The work items of a stage have not completed when they are queued. -/
theorem Startable.not_isCompleted (hstart : Startable rt p w run k result) (hstored : StoredAs rt run.id result records)
    (h : Shape rt u w) (hq : Queues w t records) {x : WorkItemRecord} (hx : x ∈ t.db.workItems)
    (hrun : x.runId = run.id) (hk : x.stageIndex = k) : ¬ IsCompleted t.db x.id ∧ ¬ IsFailed t.db x.id := by
  rcases (hq.items x).1 hx with hx | hx
  · exact absurd hk (hstart.vacant x hx hrun)
  · have hfresh := (h.rooted.idle_of_not_isAttempted (hstart.not_isAttempted hstored hq.items h hx)).2
    rw [IsCompleted, IsFailed, hq.completed, hq.failed]
    exact ⟨fun hc => hfresh (.inl hc), fun hf => hfresh (.inr hf)⟩

/-- The memberships of a stage may be recorded once its work items are queued. -/
theorem Startable.enrollable (hstart : Startable rt p w run k result) (hstored : StoredAs rt run.id result records)
    (hrun : Admissible rt u run) (h : Shape rt u w) (hq : Queues w t records) {m : StageMembership}
    (hm : m ∈ records.memberships) :
    ∃ s x, Enrollable rt u (p.enqueue run.id {id | ∃ m ∈ records.memberships, m.workItemId = id}) t run.id m s x ∧
      m.stageIndex = k := by
  have hids := ids_injective hq.items
  obtain ⟨x, hx, i, hi, hrow, hordinary, rfl, hqueues⟩ := hstored.member m hm
  obtain ⟨hxrun, hxk, item, hitem, htype, hid, hdeps⟩ := id hrow
  obtain ⟨hik, s, hs, hsrun, hsk, hindex, hstepId⟩ := hstart.stage i hi
  have hxt : x ∈ t.db.workItems := (hq.items x).2 (.inr hx)
  have hof : ItemOf rt s x :=
    ⟨hxrun.trans hsrun.symm, hxk.trans (hik.trans hsk.symm), item, hitem, hid.trans hstepId.symm⟩
  refine ⟨s, x, ⟨hq.steps ▸ hs, hsrun, hsk.trans (hik.symm.trans hxk.symm), hindex, hxt, rfl, hof, hordinary, ?_, ?_,
    fun hu y hy hofy => ?_⟩, hxk.trans hik⟩
  · exact (hstart.not_isCompleted hstored h hq hxt hxrun (hxk.trans hik)).1
  · refine .inr (.inr ⟨?_, fun r hr hrun' hlt => ?_⟩)
    · rw [hsrun, hsk]
      exact hstart.starting
    · rw [hq.steps] at hr
      rw [HasFact, hq.facts]
      exact hstart.earlier r hr (hrun'.trans hsrun) (hsk ▸ hlt)
  · -- The other work items of the step are rows of the stage too, and wait for the same work items.
    have hyrun : y.runId = run.id := hofy.1.trans hsrun
    have hyk : y.stageIndex = k := hofy.2.1.trans hsk
    have hynew : y ∈ records.items := by
      rcases (hq.items y).1 hy with hy | hy
      · exact absurd hyk (hstart.vacant y hy hyrun)
      · exact hy
    obtain ⟨j, hj, _, _, item', hitem', htype', hid', hdeps'⟩ := hstored.row y hynew
    obtain ⟨_, _, item'', hitem'', hid''⟩ := hofy
    obtain rfl := hitem'.unique hitem''
    have hij : i.stepId = j.stepId := hstepId.symm.trans (hid''.symm.trans hid')
    have hsame : item.dependsOn = item'.dependsOn := by
      rw [hdeps, hdeps', hrun.dependsOn hu result hstart.compiled i hi j hj hij]
    have hyqueues : records.Queues y := by
      rw [hstored.queues_iff hids y hynew item' hitem', ← hsame]
      exact (hstored.queues_iff hids x hx item hitem).1 hqueues
    have hyordinary : Ordinary rt y := by
      refine ⟨item', hitem', fun hmaterialize => ?_⟩
      obtain ⟨item₀, hitem₀, htype₀⟩ := hordinary
      refine htype₀ ?_
      rw [hitem₀.unique hitem, htype]
      exact hrun.kind result hstart.compiled j hj i hi hij.symm (htype' ▸ hmaterialize)
    obtain ⟨m, hm, hmid⟩ := hstored.enrolled hids y hynew hyqueues hyordinary
    exact .inr (.inl (.inr ⟨hyrun, m, hm, hmid⟩))

theorem queueWorkItems_safe {context : String} (hstart : Startable rt p w run k result)
    (hstored : StoredAs rt run.id result records) (hrun : Admissible rt u run) (h : Settled rt u p w) :
    (withContext context (call rt fun i => queueWorkItems i.fk ⟨records.items, records.resourceConstraints,
      records.queued⟩)).Safe Interference (AdvanceStep rt u)
      (fun _ t => Settled rt u (p.enqueue run.id {id | ∃ m ∈ records.memberships, m.workItemId = id}) t ∧
        Queues w t records ∧ t.activations = w.activations)
      (fun _ t => Settled rt u p t) w := by
  refine withContext_safe (call_safe AdvanceStep.refl ?_ fun _ _ => h.interference) fun _ _ => id
  intro i t ht _ db' htx
  replace h := h.interference ht
  replace hstart := hstart.interference ht
  obtain ⟨_, items, constraints, queued, rfl, hitems, hqueued⟩ := queueWorkItems_ok htx
  refine ⟨⟨.queueStage hstart hstored hitems hqueued h, ⟨fun x hx => (hitems x).2 (.inl hx), rfl, fun _ => id⟩⟩,
    h.queueStage hstart hstored hitems hqueued hrun htx, ?_,
    ht.activations⟩
  refine ⟨fun x => ?_, ht.worked.instances, ht.worked.steps, ht.worked.members, ht.worked.facts, ht.worked.completed,
    ht.worked.failed⟩
  rw [← ht.worked.items]
  exact hitems x

end Queue

/-! ### What is not pending any more -/

/-- A stage of which something is recorded and whose steps have outputs or work items is started. -/
theorem Settled.started (h : Settled rt u p w) (honly : ∀ a ∈ p.starting, a = (runId, k))
    (htouched : Touched w.db runId k ∨ Marked w.db runId rt)
    (hfilled : ∀ s ∈ w.db.dependencySteps, s.runId = runId → s.stageIndex = k →
      HasFact w.db s.runId s.stepIndex ∨ (∃ x ∈ w.db.workItems, ItemOf rt s x) ∨ Marked w.db s.runId rt) :
    Settled rt u { p with starting := ∅ } w :=
  { h with
    activated := fun a ha _ => by
      by_cases hin : a ∈ p.starting
      · obtain rfl := honly a hin
        exact htouched
      · exact h.activated a ha hin
    opened := fun x hx _ => by
      by_cases hin : (x.runId, x.stageIndex) ∈ p.starting
      · have heq := honly _ hin
        simp only [Prod.mk.injEq] at heq
        rw [heq.1, heq.2]
        exact htouched
      · exact h.opened x hx hin
    filled := fun s hs hk _ => by
      by_cases hin : (s.runId, s.stageIndex) ∈ p.starting
      · have heq := honly _ hin
        simp only [Prod.mk.injEq] at heq
        exact hfilled s hs heq.1 heq.2
      · exact h.filled s hs hk hin }

/-- The stage after a completed stage is not pending once it is touched, or the run has failed. -/
theorem Settled.unfollow {F : Set (String × ℤ)} (h : Settled rt u p w)
    (hF : ∀ a ∈ p.follow, a ∈ F ∨ (StageDone w.db a.1 a.2 → HasStage w.db a.1 (a.2 + 1) →
      Touched w.db a.1 (a.2 + 1) ∨ Dead w.db a.1 rt)) : Settled rt u { p with follow := F } w :=
  { h with
    followed := fun R j hdone hnext hnot => by
      by_cases hin : (R, j) ∈ p.follow
      · exact ((hF _ hin).resolve_left hnot) hdone hnext
      · exact h.followed R j hdone hnext hin }

/-- Only the stage after a completed stage is pending. -/
def Pending.following (runId : String) (j : ℤ) : Pending := { Pending.none with follow := {(runId, j)} }

/-! ### Compiling the next stage -/

/-- **A stage that was compiled to be activated.** -/
structure Opening (rt : Runtime) (w : World) (runId : String) (k : ℤ) (run : WorkflowRunRecord)
    (result : CompileStageResult) : Prop where
  created : run ∈ w.db.workflowInstances
  id : run.id = runId
  alive : ¬ Dead w.db runId rt
  compiled : CompiledFor rt run result
  index : result.stageIndex = k
  stage : ∀ i ∈ result.workItems, i.stageIndex = k ∧ ∃ s ∈ w.db.dependencySteps, s.runId = runId ∧ s.stageIndex = k ∧
    s.stepIndex = i.stepIndex ∧ s.stepId = i.stepId
  begun : (runId, k) ∈ w.activations
  has : HasStage w.db runId k
  earlier : ∀ s ∈ w.db.dependencySteps, s.runId = runId → s.stageIndex < k → HasFact w.db s.runId s.stepIndex
  untouched : ¬ Touched w.db runId k
  vacant : ∀ x ∈ w.db.workItems, x.runId = runId → x.stageIndex ≠ k

/-- The work items of a compiled stage are those of the steps in the store. -/
theorem InStage.step_rows {stages : List Stage} {workflow : WorkflowDefinition} {db : Store}
    (h : InStage stages k result) (hstages : normalizeStages workflow = .ok stages)
    (hiff : ∀ t, t ∈ stageSteps stages ↔ ∃ s ∈ db.dependencySteps, s.runId = runId ∧ stageStep s = t) :
    ∀ i ∈ result.workItems, i.stageIndex = k ∧ ∃ s ∈ db.dependencySteps, s.runId = runId ∧ s.stageIndex = k ∧
      s.stepIndex = i.stepIndex ∧ s.stepId = i.stepId := by
  intro i hi
  obtain ⟨stage, hstage, rfl, hitems⟩ := h.workItem
  obtain ⟨hk, step, hstep, hindex, hstepId⟩ := hitems i hi
  obtain ⟨s, hs, hrun, rfl⟩ := (hiff step).1 (List.mem_flatMap.2 ⟨stage, hstage, hstep⟩)
  exact ⟨hk, s, hs, hrun, (normalizeStages_staged hstages).stage stage hstage _ hstep, hindex, hstepId⟩

variable {timestamp : String}

section Activate

variable {j : ℤ} {stage : DependencyStage}

/-- A stage that is derived as blocked was not begun and has no work items. -/
theorem Settled.vacant_of_untouched (h : Settled rt u p w) (hstarting : p.starting = ∅) (halive : ¬ Dead w.db runId rt)
    (huntouched : ¬ Touched w.db runId k) :
    (runId, k) ∉ w.activations ∧ ∀ x ∈ w.db.workItems, x.runId = runId → x.stageIndex ≠ k := by
  constructor
  · intro hin
    rcases h.activated _ hin (by simp [hstarting]) with htouched | hmarked
    · exact huntouched htouched
    · exact halive (.inl hmarked)
  · rintro x hx rfl rfl
    rcases h.opened x hx (by simp [hstarting]) with htouched | hmarked
    · exact huntouched htouched
    · exact halive (.inl hmarked)

theorem compileActivationStage_safe (h : Settled rt u (.following runId j) w) (hd : Derived w.db runId rt (some plan))
    (halive : ¬ Dead w.db runId rt) (hj : HasStage w.db runId j) (hstage : findDependencyStage plan (j + 1) = some stage)
    (hblocked : stage.state = .blocked) :
    (compileActivationStage rt runId plan (j + 1)).Safe Interference (AdvanceStep rt u)
      (fun compiled t => Settled rt u { Pending.following runId j with starting := {(runId, j + 1)} } t ∧
        t.db.dependencySteps = w.db.dependencySteps ∧ ∃ run, Opening rt t runId (j + 1) run compiled.1)
      (fun _ t => Settled rt u { Pending.following runId j with starting := {(runId, j + 1)} } t) w := by
  have hmarked : ¬ Marked w.db runId rt := fun hmarked => halive (.inl hmarked)
  have huntouched := (hd.blocked_iff h.toShape hmarked hstage hj (by omega)).1 hblocked
  have hhas := hd.hasStage hstage
  obtain ⟨hnew, hvacant⟩ := h.vacant_of_untouched rfl halive huntouched
  refine Prog.Safe.bind fun i t ht => ?_
  have hdead : ¬ Dead t.db runId rt := mt ht.dead_iff.1 halive
  have hsettled := (h.interference ht).begin (a := (runId, j + 1)) (ht.activations ▸ hnew)
  have hpending : ({ Pending.following runId j with
      starting := insert (runId, j + 1) (Pending.following runId j).starting } : Pending) =
        { Pending.following runId j with starting := {(runId, j + 1)} } := by
    simp [Pending.following, Pending.none]
  rw [hpending] at hsettled
  refine ⟨⟨.begin (ht.activations ▸ hnew) hdead, ⟨fun _ => id, rfl, fun _ => id⟩⟩, ?_⟩
  dsimp only [Bind.bind, Prog.bind]
  cases hfound : getWorkflowRun t.db runId with
  | none => exact hsettled
  | some run =>
    obtain ⟨hrun, rfl⟩ := getWorkflowRun_eq_some.1 hfound
    refine Prog.Safe.bind (Prog.Safe.ofExcept (fun workflow hworkflow => ?_) fun _ _ => hsettled)
    simp only [hstage]
    refine Prog.Safe.bind (Prog.Safe.ofExcept (fun outputs houtputs => ?_) fun _ _ => hsettled)
    refine Prog.Safe.ofExcept (fun compiled hcompiled => ⟨hsettled, ht.worked.steps, run, ?_⟩) fun _ _ => hsettled
    obtain ⟨result, codeVersion⟩ := compiled
    obtain ⟨stages, hstages, hin⟩ := compileAdmitted_ok hcompiled
    have hplan : PlanOf rt t.db run := (h.interference ht).workflow run hrun (fun hmarked => hdead (.inl hmarked)) (by
      obtain ⟨s, hs, hsrun, _⟩ := hj
      exact ⟨s, by rwa [ht.worked.steps], hsrun⟩)
    obtain ⟨workflow', stages', hworkflow', hstages', hiff⟩ := hplan
    obtain rfl : workflow = workflow' := by
      rw [hworkflow] at hworkflow'
      cases hworkflow'
      rfl
    obtain rfl : stages = stages' := by
      rw [hstages] at hstages'
      cases hstages'
      rfl
    have hearlier := hd.earlier_facts h.toShape hmarked hstage houtputs
    refine ⟨hrun, rfl, hdead, ⟨workflow, hworkflow, .inl ⟨outputs, _, codeVersion, hcompiled⟩⟩, hin.stageIndex,
      hin.step_rows hstages hiff, List.mem_append_right _ (List.mem_singleton_self _), ?_, ?_, ?_, ?_⟩
    · rwa [HasStage, ht.worked.steps]
    · intro s hs hsrun hk
      rw [HasFact, ht.worked.facts]
      exact hearlier s (by rwa [← ht.worked.steps]) hsrun hk
    · exact mt ht.touched_iff.1 huntouched
    · rwa [ht.worked.items]

/-! ### Activating it -/

variable {run : WorkflowRunRecord}

theorem Opening.emptiable (ho : Opening rt w runId k run result)
    (hstarting : (runId, k) ∈ p.starting) (hfollow : (runId, k) ∈ p.follow) : Emptiable rt p w runId k result where
  has := ho.has
  starting := hstarting
  follow := hfollow
  before := ho.earlier
  unpublished s hs hrun hk hfact := ho.untouched ⟨s, hs, hrun, hk, .inl hfact⟩
  unfinished x hx hrun hk := absurd hk (ho.vacant x hx hrun)
  compiled _ _ hrun hk x hx hof := absurd (hof.2.1.trans hk) (ho.vacant x hx (hof.1.trans hrun))

/-- Once the empty steps are closed, the stage may get its work items. -/
theorem Opening.startable (ho : Opening rt w runId k run result) (hf : Frame rt w t)
    (halive : ¬ Dead t.db runId rt) (hstarting : p.starting = {(runId, k)})
    (hfacts : ∀ s ∈ w.db.dependencySteps, s.runId = runId → s.stageIndex = k →
      (HasFact t.db s.runId s.stepIndex ↔ NoneFor result s)) : Startable rt p t run k result where
  created := (hf.runs run ho.created).resolve_right fun hmarked => halive (.inl (ho.id ▸ hmarked))
  alive hmarked := halive (.inl (ho.id ▸ hmarked))
  compiled := ho.compiled
  stage := by
    rw [hf.steps, ho.id]
    exact ho.stage
  starting := by
    rw [hstarting, ho.id]
    rfl
  only a ha := by
    rw [hstarting] at ha
    rw [ho.id]
    exact ha
  begun _ := by
    rw [hf.activations, ho.id]
    exact ho.begun
  vacant x hx hrun := ho.vacant x (hf.items ▸ hx) (hrun.trans ho.id)
  unpublished s hs hrun hk hfact i hi hstepId := by
    rw [hf.steps] at hs
    obtain ⟨_, s', hs', hrun', hk', hindex, hid⟩ := ho.stage i hi
    obtain rfl := stepId_eq hs hs' ((hrun.trans ho.id).trans hrun'.symm) (hk.trans hk'.symm) (hstepId.symm.trans hid.symm)
    exact (hfacts s hs (hrun.trans ho.id) hk).1 hfact i hi hindex.symm
  earlier s hs hrun hk := hf.facts _ _ (ho.earlier s (hf.steps ▸ hs) (hrun.trans ho.id) hk)

theorem markWorkflowStageReady_records (hrt : rt.Lawful) (h : Settled rt u p w) :
    Records rt u (markWorkflowStageReady rt runId k) (fun _ t => Settled rt u p t) (fun _ t => Settled rt u p t) w := by
  refine Records.after_read (getWorkflowDependencyState_reads h.rooted) (fun _ _ => h.interference) ?_
  rintro (_ | plan) t ht -
  · exact h.interference ht
  simp only
  split
  · exact h.interference ht
  · split
    · exact h.interference ht
    · split
      · exact h.interference ht
      · exact (setWorkflowDependencyState_records hrt (h.interference ht)).mono (fun _ _ ht => ht.1) fun _ _ => id

variable {records : StageRecords}

theorem Queues.frame (h : Queues w t records) {s : WorkflowDependencyStepRecord} :
    (HasFact t.db s.runId s.stepIndex ↔ HasFact w.db s.runId s.stepIndex) ∧ (HasMember t.db s ↔ HasMember w.db s) := by
  rw [HasFact, HasFact, HasMember, HasMember, h.facts, h.members]
  exact ⟨Iff.rfl, Iff.rfl⟩

/-- A stage whose work items were just queued is not done. -/
theorem Startable.not_stageDone
    (hstart : Startable rt p w run k result) (h : Shape rt u w) (hq : Queues w t records) {i : CompileStageWorkItem}
    (hi : i ∈ result.workItems) : ¬ StageDone t.db run.id k := by
  rintro ⟨_, hall⟩
  obtain ⟨_, s, hs, hrun, hk, _, hid⟩ := hstart.stage i hi
  rcases hall s (hq.steps ▸ hs) hrun hk with hfact | ⟨hmember, _⟩
  · exact hstart.unpublished s hs hrun hk (hq.frame.1.1 hfact) i hi hid.symm
  · obtain ⟨m, hm, hof⟩ := hq.frame.2.1 hmember
    obtain ⟨s', hs', hof', x, hx, _, hitem, _⟩ := h.member m hm
    refine hstart.vacant x hx (hitem.1.trans (hof'.1.symm.trans (hof.1.trans hrun))) ?_
    exact hitem.2.1.trans (hof'.2.1.symm.trans (hof.2.1.trans hk))

/-- What is pending while a stage after a completed one is being started. -/
def Pending.opening (runId : String) (j : ℤ) : Pending :=
  { Pending.none with follow := {(runId, j), (runId, j + 1)}, starting := {(runId, j + 1)} }

theorem Pending.opening_le_all (runId : String) (j : ℤ) : Pending.opening runId j ≤ .all runId := by
  refine ⟨?_, ?_, Set.empty_subset _, Set.empty_subset _, Set.empty_subset _⟩
  · rintro _ (rfl | rfl) <;> rfl
  · rintro _ rfl
    rfl

/-- The work items of the stage are queued and its memberships recorded: the stage is started. -/
theorem queueStage_safe (hrt : rt.Lawful) {codeVersion : String}
    (h : Settled rt u (.opening run.id j) w) (hstart : Startable rt (.opening run.id j) w run (j + 1) result)
    (hrecords : persistenceRecordsFromCompiledStageResults rt run.id result codeVersion timestamp = .ok records)
    (hitems : records.items ≠ [])
    (hfacts : ∀ s ∈ w.db.dependencySteps, s.runId = run.id → s.stageIndex = j + 1 → NoneFor result s →
      HasFact w.db s.runId s.stepIndex) :
    (queueStage rt run.id records).Safe Interference (AdvanceStep rt u) (fun _ t => Settled rt u .none t)
      (fun _ t => Settled rt u (.all run.id) t) w := by
  have hstored := persistenceRecords_storedAs hrt hrecords
  have hadmissible := h.admitted run hstart.created hstart.alive
  refine Prog.Safe.bind ((queueWorkItems_safe hstart hstored hadmissible h).mono ?_ fun _ t ht =>
    ht.mono (Pending.opening_le_all run.id j))
  · rintro _ t ⟨ht, hq, -⟩
    -- The stage is not done, so that nothing has to follow it.
    have hopen : ¬ StageDone t.db run.id (j + 1) := by
      obtain ⟨x, hx⟩ := List.exists_mem_of_ne_nil _ hitems
      obtain ⟨i, hi, _⟩ := hstored.row x hx
      exact hstart.not_stageDone h.toShape hq hi
    have ht' := ht.unfollow (F := {(run.id, j)}) fun a ha => by
      rcases ha with rfl | rfl
      · exact .inl rfl
      · exact .inr fun hdone => absurd hdone hopen
    refine (Records.runs (recordMemberships_records hrt records.memberships ht' fun m hm => ?_)).mono ?_ ?_
    · obtain ⟨s, x, hm, _⟩ := hstart.enrollable hstored hadmissible h.toShape hq hm
      exact ⟨s, x, { hm with may := hm.may }⟩
    · rintro _ t' ⟨⟨hsettled, htouched, _⟩, hframe⟩
      have hnext : Touched t'.db run.id (j + 1) := by
        obtain ⟨m, hm⟩ := List.exists_mem_of_ne_nil _
          (hadmissible.visible result hstart.compiled codeVersion timestamp records hrecords hitems)
        obtain ⟨_, _, _, hmk⟩ := hstart.enrollable hstored hadmissible h.toShape hq hm
        exact hmk ▸ htouched m hm
      have hstarted := hsettled.started (fun a ha => ha) (.inl hnext) fun s hs hrun hk => by
        rw [hframe.steps, hq.steps] at hs
        by_cases hnone : NoneFor result s
        · exact .inl (hframe.facts _ _ (hq.frame.1.2 (hfacts s hs hrun hk hnone)))
        · obtain ⟨x, hx, hof⟩ := hstart.exists_item hstored hs hrun hk hnone
          exact .inr (.inl ⟨x, hframe.items ▸ (hq.items x).2 (.inr hx), hof⟩)
      have hnone := hstarted.unfollow (F := ∅) fun a ha => by
        obtain rfl : a = (run.id, j) := ha
        exact .inr fun _ _ => .inl hnext
      refine hnone.mono ⟨subset_rfl, subset_rfl, subset_rfl, ?_, subset_rfl⟩
      rintro a ⟨ha | ha, hnot⟩
      · exact ha
      · exact absurd ha hnot
    · rintro _ t' ⟨hsettled, _⟩
      refine hsettled.mono ⟨?_, ?_, ?_, ?_, ?_⟩
      · rintro _ rfl
        rfl
      · rintro _ rfl
        rfl
      · exact Set.empty_subset _
      · rintro a (ha | ha)
        · cases ha
        · exact ha.1
      · exact Set.empty_subset _

theorem Pending.following_le_opening (runId : String) (j : ℤ) :
    { Pending.following runId j with starting := {(runId, j + 1)} } ≤ Pending.opening runId j :=
  ⟨fun _ ha => .inl ha, subset_rfl, subset_rfl, subset_rfl, subset_rfl⟩

/-- **The activation of one stage**: nothing is pending after it, or the stage had no work items and the next
one is to follow. -/
theorem activateStage_safe (hrt : rt.Lawful) (h : Settled rt u (.following runId j) w)
    (hd : Derived w.db runId rt (some plan)) (halive : ¬ Dead w.db runId rt) (hj : HasStage w.db runId j)
    (hstage : findDependencyStage plan (j + 1) = some stage) (hblocked : stage.state = .blocked) :
    (activateStage rt runId timestamp plan (j + 1)).Safe Interference (AdvanceStep rt u)
      (fun b t => if b then Settled rt u (.following runId (j + 1)) t ∧ ¬ Dead t.db runId rt ∧
        t.db.dependencySteps = w.db.dependencySteps else Settled rt u .none t)
      (fun _ t => Settled rt u (.all runId) t) w := by
  have hle := Pending.opening_le_all runId j
  refine Prog.Safe.bind ((compileActivationStage_safe h hd halive hj hstage hblocked).mono ?_ ?_)
  swap
  · exact fun _ t ht => (ht.mono (Pending.following_le_opening runId j)).mono hle
  rintro ⟨result, codeVersion⟩ t₁ ⟨h₁, hsteps, run, ho⟩
  replace h₁ := h₁.mono (Pending.following_le_opening runId j)
  refine Prog.Safe.bind (Prog.Safe.ofExcept (fun records hrecords => ?_) fun _ _ => h₁.mono hle)
  have he : Emptiable rt (.opening runId j) t₁ runId (j + 1) result := ho.emptiable rfl (.inr rfl)
  refine Prog.Safe.bind ((Records.runs (markCompiledStageEmptyStepsCompleted_records hrt h₁ he ho.index)).mono ?_ ?_)
  swap
  · exact fun _ t ht => ht.1.mono hle
  rintro b t₂ ⟨⟨h₂, hclosed⟩, hframe⟩
  obtain ⟨halive₂, hfacts, hb⟩ := hclosed ho.alive
  cases b with
  | true =>
    have hall : ∀ s ∈ t₂.db.dependencySteps, s.runId = runId → s.stageIndex = j + 1 →
        HasFact t₂.db s.runId s.stepIndex := fun s hs hrun hk => by
      rw [hframe.steps] at hs
      exact (hfacts s hs hrun hk).2 (hb.1 rfl s hs hrun hk)
    have hnext : Touched t₂.db runId (j + 1) := by
      obtain ⟨s, hs, hrun, hk⟩ := ho.has
      rw [← hframe.steps] at hs
      exact ⟨s, hs, hrun, hk, .inl (hall s hs hrun hk)⟩
    have hstarted := h₂.started (fun a ha => ha) (.inl hnext) fun s hs hrun hk => .inl (hall s hs hrun hk)
    refine ⟨hstarted.unfollow (F := {(runId, j + 1)}) fun a ha => ?_, halive₂, hframe.steps.trans hsteps⟩
    rcases ha with rfl | rfl
    · exact .inr fun _ _ => .inl hnext
    · exact .inl rfl
  | false =>
    have hstart : Startable rt (.opening runId j) t₂ run (j + 1) result := ho.startable hframe halive₂ rfl hfacts
    obtain rfl := ho.id
    have hitems : records.items ≠ [] := by
      have hsome : ¬ ∀ s ∈ t₁.db.dependencySteps, s.runId = run.id → s.stageIndex = j + 1 → NoneFor result s := by
        simpa using hb
      push Not at hsome
      obtain ⟨s, hs, hrun, hk, hnone⟩ := hsome
      obtain ⟨x, hx, _⟩ := hstart.exists_item (persistenceRecords_storedAs hrt hrecords) (hframe.steps ▸ hs) hrun hk hnone
      exact List.ne_nil_of_mem hx
    simp only [Bool.false_eq_true, if_false, List.isEmpty_iff, if_neg hitems]
    refine Prog.Safe.bind ((queueStage_safe hrt h₂ hstart hrecords hitems fun s hs hrun hk hnone => ?_).mono ?_ fun _ _ => id)
    · rw [hframe.steps] at hs
      exact (hfacts s hs hrun hk).2 hnone
    · rintro _ t₃ h₃
      refine Prog.Safe.bind ((Records.runs (markWorkflowStageReady_records hrt h₃)).mono ?_ ?_)
      · rintro _ t₄ ⟨h₄, _⟩
        exact h₄
      · rintro _ t₄ ⟨h₄, _⟩
        exact h₄.mono (Pending.none_le _)

end Activate

/-! ### The loop -/

/-- Where a handler ends, the steps that were there are there. -/
theorem keeps_steps {α : Type} {q : Ctl α} {Q : α → World → Prop} {E : String → World → Prop}
    (h : q.Safe Interference (AdvanceStep rt u) Q E w) :
    q.Safe Interference (AdvanceStep rt u) (fun a t => Q a t ∧ ∀ s ∈ w.db.dependencySteps, s ∈ t.db.dependencySteps)
      (fun e t => E e t ∧ ∀ s ∈ w.db.dependencySteps, s ∈ t.db.dependencySteps) w :=
  Prog.Safe.reaches (T := fun w t : World => ∀ s ∈ w.db.dependencySteps, s ∈ t.db.dependencySteps) (fun _ _ => id)
    (fun _ _ _ h h' s hs => h' s (h s hs)) (fun _ _ ht s hs => by rwa [ht.worked.steps]) (fun _ _ ht => ht.1.steps) h

theorem failWorkflowStageActivation_safe (hrt : rt.Lawful) {cause : String} (h : Settled rt u (.all runId) w)
    (hplan : HasPlan w.db runId) :
    (failWorkflowStageActivation rt runId k cause).Safe Interference (AdvanceStep rt u) (fun _ t => Settled rt u .none t)
      (fun _ _ => True) w := by
  refine Prog.Safe.bind (Prog.Safe.attempt ((Records.runs (markWorkflowStageActivationFailed_records hrt h)).mono ?_ ?_))
  · rintro _ t ⟨⟨ht, hmarked⟩, _⟩
    exact ht.forget (hmarked hplan)
  · exact fun _ _ _ => trivial

/-- The stages of a run from an index on. -/
def laterStages (db : Store) (runId : String) (k : ℤ) : Finset ℤ :=
  ((listWorkflowDependencySteps db runId).map (·.stageIndex)).toFinset.filter (k ≤ ·)

section Later

variable {db : Store}

theorem mem_laterStages {i : ℤ} : i ∈ laterStages db runId k ↔ HasStage db runId i ∧ k ≤ i := by
  simp only [laterStages, Finset.mem_filter, List.mem_toFinset, List.mem_map, mem_listWorkflowDependencySteps, HasStage,
    and_assoc]

/-- There are fewer stages after a stage than from it on. -/
theorem card_laterStages_lt (h : HasStage db runId k) :
    (laterStages db runId (k + 1)).card < (laterStages db runId k).card := by
  refine Finset.card_lt_card ⟨fun i hi => ?_, fun hsub => ?_⟩
  · rw [mem_laterStages] at hi ⊢
    exact ⟨hi.1, by omega⟩
  · have := (mem_laterStages.1 (hsub (mem_laterStages.2 ⟨h, le_refl k⟩))).2
    omega

/-- A plan has at least as many stages as there are from any stage on. -/
theorem Derived.card_laterStages_le (hd : Derived db runId rt (some plan)) :
    (laterStages db runId k).card ≤ plan.stages.length := by
  obtain ⟨run, _, rfl, seen, _, hplan⟩ := hd
  rw [(reconstructPlan_ok.1 hplan).1, DependencyPlan.withStoredFailure_stages, stages_derivePlan, List.length_map,
    stageIndexes, List.length_insertionSort, ← List.card_toFinset]
  refine Finset.card_le_card fun i hi => ?_
  obtain ⟨⟨s, hs, hrun, rfl⟩, _⟩ := mem_laterStages.1 hi
  exact List.mem_toFinset.2 (List.mem_map.2 ⟨_, mem_stepRows.2 ⟨s, hs, hrun, rfl⟩, rfl⟩)

end Later

variable {j : ℤ}

/-- Nothing has to follow a stage if there is no next one, or if it is touched or the run has failed. -/
theorem Settled.nothing_follows (h : Settled rt u (.following runId j) w)
    (hnext : StageDone w.db runId j → HasStage w.db runId (j + 1) → Touched w.db runId (j + 1) ∨ Dead w.db runId rt) :
    Settled rt u .none w :=
  h.unfollow (F := ∅) fun a ha => by
    obtain rfl : a = (runId, j) := ha
    exact .inr hnext

/-- **The loop over the stages** ends with nothing pending. -/
theorem activateStages_safe (hrt : rt.Lawful) {rounds : ℕ}
    (h : Settled rt u (.following runId j) w) (hd : Derived w.db runId rt (some plan)) (halive : ¬ Dead w.db runId rt)
    (hj : HasStage w.db runId j) (hrounds : (laterStages w.db runId (j + 1)).card ≤ rounds) :
    (activateStages rt runId timestamp rounds plan (j + 1)).Safe Interference (AdvanceStep rt u)
      (fun _ t => Settled rt u .none t) (fun _ _ => True) w := by
  induction rounds generalizing w plan j with
  | zero =>
    refine h.nothing_follows fun _ hnext => ?_
    have hempty := Finset.card_eq_zero.1 (Nat.le_zero.1 hrounds)
    have hmem := mem_laterStages.2 ⟨hnext, le_refl _⟩
    rw [hempty] at hmem
    cases hmem
  | succ rounds ih =>
    unfold activateStages
    cases hstage : findDependencyStage plan (j + 1) with
    | none =>
      refine h.nothing_follows fun _ hnext => ?_
      obtain ⟨stage, hfound⟩ := hd.exists_stage hnext
      rw [hstage] at hfound
      cases hfound
    | some stage =>
      have hmarked : ¬ Marked w.db runId rt := fun hmarked => halive (.inl hmarked)
      have hnext := hd.hasStage hstage
      simp only
      split
      · rename_i hstate
        refine h.nothing_follows fun _ _ => .inl ?_
        by_contra huntouched
        exact hstate ((hd.blocked_iff h.toShape hmarked hstage hj (by omega)).2 huntouched)
      · rename_i hblocked
        push Not at hblocked
        refine Prog.Safe.bind (Prog.Safe.attempt ((keeps_steps
          (activateStage_safe hrt h hd halive hj hstage hblocked)).mono ?_ ?_))
        · rintro (_ | _) t ⟨ht, -⟩
          · exact ht
          · obtain ⟨ht, halive', hsteps⟩ := ht
            refine Reads.bind (getWorkflowDependencyState_reads ht.rooted) AdvanceStep.refl (fun _ _ _ => trivial) ?_
            have hnext' : HasStage t.db runId (j + 1) := by rwa [HasStage, hsteps]
            rintro (_ | nextPlan) t' ht' hd'
            · exact absurd ((hnext'.hasPlan ht.toShape).interference ht') hd'
            · have hcard : (laterStages t'.db runId (j + 1 + 1)).card ≤ rounds := by
                have hlt := card_laterStages_lt hnext
                have heq : laterStages t'.db runId (j + 1 + 1) = laterStages w.db runId (j + 1 + 1) := by
                  rw [laterStages, laterStages, listWorkflowDependencySteps, listWorkflowDependencySteps,
                    ht'.worked.steps, hsteps]
                rw [heq]
                omega
              refine ih (ht.interference ht') hd' (mt ht'.dead_iff.1 halive') ?_ hcard
              rwa [HasStage, ht'.worked.steps]
        · rintro cause t ⟨ht, hsteps⟩
          refine failWorkflowStageActivation_safe hrt ht (HasStage.hasPlan (k := j) ?_ ht.toShape)
          obtain ⟨s, hs, hrun, hk⟩ := hj
          exact ⟨s, hsteps s hs, hrun, hk⟩

/-- **Going on to the next stage** leaves nothing pending. -/
theorem activateNextReadyWorkflowStage_safe (hrt : rt.Lawful) (h : Settled rt u (.following runId j) w) :
    (activateNextReadyWorkflowStage rt runId j timestamp).Safe Interference (AdvanceStep rt u)
      (fun _ t => Settled rt u .none t) (fun _ _ => True) w := by
  refine Reads.bind (getWorkflowDependencyState_reads h.rooted) AdvanceStep.refl (fun _ _ _ => trivial) ?_
  rintro found t ht hd
  replace h := h.interference ht
  clear ht
  cases found with
  | none => exact h.nothing_follows fun hdone _ => absurd (hdone.1.hasPlan h.toShape) hd
  | some plan =>
    have hfailed := hd.failed_iff h.toShape
    simp only
    split
    · rename_i hstate
      refine h.nothing_follows fun _ hnext => ?_
      by_cases hdead : Dead t.db runId rt
      · exact .inr hdead
      · -- The run is completed, and so the next stage is.
        have hcompleted : plan.state = .completed := by
          cases hcase : plan.state with
          | running => exact absurd hcase hstate
          | completed => rfl
          | failed => exact absurd (hfailed.1 hcase) hdead
        obtain ⟨s, hs, hrun, hk⟩ := hnext
        refine .inl ⟨s, hs, hrun, hk, ?_⟩
        exact (((hd.run_completed_iff h.toShape hdead).1 hcompleted).2 s hs hrun).imp_right And.left
    · rename_i hrunning
      push Not at hrunning
      have halive : ¬ Dead t.db runId rt := fun hdead => by
        rw [hfailed.2 hdead] at hrunning
        cases hrunning
      cases hstage : findDependencyStage plan j with
      | none =>
        refine h.nothing_follows fun hdone _ => ?_
        obtain ⟨stage, hfound⟩ := hd.exists_stage hdone.1
        rw [hstage] at hfound
        cases hfound
      | some stage =>
        simp only
        split
        · rename_i hstate
          exact h.nothing_follows fun hdone _ => absurd ((hd.completed_iff h.toShape halive hstage).2 hdone) hstate
        · exact activateStages_safe hrt h hd halive (hd.hasStage hstage) hd.card_laterStages_le

end GoEtl.Controller
