import GoEtl.Controller.Starting

/-!
# What a derived plan says of its run

The states in a plan that was derived from the rows of a run, as statements about these rows: the plan has
failed exactly if the run has (`failed_iff`), a stage is blocked exactly if nothing is recorded of it
(`blocked_iff`), and in a run that has not failed a stage is completed exactly if all its steps are done
(`completed_iff`).
-/

namespace GoEtl.Controller

open Library Persistence Workflow

variable {rt : Runtime} {u : Prop} {w : World} {runId : String} {plan : DependencyPlan}

theorem legacy_of_fresh {json : String} (h : rt.decodeDependencyState json = .ok none) :
    legacyWorkflowDependencyPlan rt json = none := by
  simp only [legacyWorkflowDependencyPlan, h]

/-- Only failed plans are stored. -/
theorem Shape.storedFailed (h : Shape rt u w) : StoredFailed rt w.db := by
  intro r hr plan hplan
  by_cases hmarked : Marked w.db r.id rt
  · obtain ⟨r', hr', hid, plan', hplan', hfailed⟩ := hmarked
    rw [run_eq hr' hr hid, hplan] at hplan'
    cases hplan'
    exact hfailed
  · rw [legacy_of_fresh (h.admitted r hr hmarked).fresh] at hplan
    cases hplan

/-- The row of a member's work item. -/
theorem Shape.item_of_member (h : Shape rt u w) {m : WorkflowDependencyWorkItemRecord}
    (hm : m ∈ w.db.dependencyWorkItems) : ∃ x ∈ w.db.workItems, x.id = m.workItemId ∧ x.runId = m.runId := by
  obtain ⟨s, _, hof, x, hx, hid, hitem, _⟩ := h.member m hm
  exact ⟨x, hx, hid, hitem.1.trans hof.1.symm⟩

section Shown

variable (h : Shape rt u w) {seen : Observations} (hseen : ShowsTerminal w.db runId seen.terminal)
  {m : WorkflowDependencyWorkItemRecord} (hm : m ∈ w.db.dependencyWorkItems) (hrun : m.runId = runId)

include h hseen hm hrun

theorem showsFailed_iff : ShowsFailed seen m.workItemId ↔ IsFailed w.db m.workItemId := by
  refine ⟨isFailed_of_shows hseen, fun hfailed => ?_⟩
  obtain ⟨x, hx, hid, hxrun⟩ := h.item_of_member hm
  rw [← hid] at hfailed ⊢
  exact shows_of_isFailed hseen hx (hxrun.trans hrun) hfailed fun hcompleted => h.outcome _ ⟨hcompleted, hfailed⟩

theorem showsCompleted_iff : ShowsCompleted seen m.workItemId ↔ IsCompleted w.db m.workItemId := by
  refine ⟨isCompleted_of_shows hseen, fun hcompleted => ?_⟩
  obtain ⟨x, hx, hid, hxrun⟩ := h.item_of_member hm
  rw [← hid] at hcompleted ⊢
  refine (shows_of_isCompleted hseen hx (hxrun.trans hrun) hcompleted).resolve_right fun hfailed => ?_
  exact h.outcome _ ⟨hcompleted, isFailed_of_shows hseen hfailed⟩

end Shown

/-! ### The run -/

variable (h : Shape rt u w) (hd : Derived w.db runId rt (some plan))

include h hd

/-- **The plan has failed exactly if the run has.** -/
theorem Derived.failed_iff : plan.state = .failed ↔ Dead w.db runId rt := by
  by_cases hmarked : Marked w.db runId rt
  · exact iff_of_true (hd.failed_of_marked hmarked) (.inl hmarked)
  · obtain ⟨run, _, hid, seen, hseen, rfl⟩ := hd.eq_derivePlan h.storedFailed hmarked
    rw [derivePlan_failed]
    constructor
    · rintro ⟨r, hr, m, hm, hshows⟩
      obtain ⟨s, hs, rfl, rfl⟩ := mem_stepRows.1 hr
      obtain ⟨hm, hof⟩ := mem_rowsOfStep_memberships.1 hm
      exact .inr ⟨m, hm, hof.1, isFailed_of_shows hseen hshows⟩
    · rintro (hmarked' | ⟨m, hm, hrun, hfailed⟩)
      · exact absurd hmarked' hmarked
      · obtain ⟨s, hs, hof, _⟩ := h.member m hm
        have hsrun : s.runId = runId := hof.1.symm.trans hrun
        refine ⟨_, mem_stepRows.2 ⟨s, hs, hsrun, rfl⟩, m, ?_, (showsFailed_iff h hseen hm hrun).2 hfailed⟩
        rw [← hsrun]
        exact mem_rowsOfStep_memberships.2 ⟨hm, hof⟩

/-- A plan that has not failed was derived from the rows alone. -/
theorem Derived.of_alive (halive : ¬ Dead w.db runId rt) :
    ∃ run ∈ w.db.workflowInstances, run.id = runId ∧ ∃ seen : Observations, ShowsTerminal w.db runId seen.terminal ∧
      plan = derivePlan run none (stepRows w.db runId) seen :=
  hd.eq_derivePlan h.storedFailed fun hmarked => halive (.inl hmarked)

variable {s : WorkflowDependencyStepRecord}

omit hd in
/-- A step of a run that has not failed is derived as completed exactly if it is done. -/
theorem step_completed_iff {seen : Observations} (hseen : ShowsTerminal w.db runId seen.terminal)
    (halive : ¬ Dead w.db runId rt) (hrun : s.runId = runId) :
    ((rowsOfStep w.db runId s).derive runId none seen).state = .completed ↔ StepDone w.db s := by
  subst hrun
  have hnone : ∀ m ∈ (rowsOfStep w.db s.runId s).memberships, ¬ ShowsFailed seen m.workItemId := fun m hm hshows => by
    obtain ⟨hm, hof⟩ := mem_rowsOfStep_memberships.1 hm
    exact halive (.inr ⟨m, hm, hof.1, isFailed_of_shows hseen hshows⟩)
  rw [StepRows.derive_completed, and_iff_right hnone, rowsOfStep_fact]
  refine or_congr_right (and_congr ?_ ?_)
  · rw [ne_nil_iff_exists_mem]
    simp only [mem_rowsOfStep_memberships]
    rfl
  · simp only [mem_rowsOfStep_memberships, and_imp]
    exact forall₃_congr fun m hm hof => showsCompleted_iff h hseen hm hof.1

variable {k : ℤ} {stage : DependencyStage}

/-- **A stage is completed exactly if all its steps are done.** -/
theorem Derived.completed_iff (halive : ¬ Dead w.db runId rt) (hstage : findDependencyStage plan k = some stage)
    : stage.state = .completed ↔ StageDone w.db runId k := by
  obtain ⟨run, _, rfl, seen, hseen, rfl⟩ := hd.of_alive h halive
  rw [← DependencyPlan.withStoredFailure_none (derivePlan _ _ _ _)] at hstage
  obtain ⟨_, reason, rfl⟩ := findDependencyStage_derivePlan hstage
  rw [deriveStage_completed, exists_stepRows, forall_stepRows]
  exact and_congr_right' (forall₃_congr fun s _ hrun => imp_congr_right fun _ => step_completed_iff h hseen halive hrun)

/-- The run is completed exactly if all its steps are done. -/
theorem Derived.run_completed_iff (halive : ¬ Dead w.db runId rt) :
    plan.state = .completed ↔ (∃ s ∈ w.db.dependencySteps, s.runId = runId) ∧
      ∀ s ∈ w.db.dependencySteps, s.runId = runId → StepDone w.db s := by
  obtain ⟨run, _, rfl, seen, hseen, rfl⟩ := hd.of_alive h halive
  have hsome : stepRows w.db run.id ≠ [] ↔ ∃ s ∈ w.db.dependencySteps, s.runId = run.id := by
    rw [ne_nil_iff_exists_mem]
    simpa using exists_stepRows (P := fun _ => True)
  rw [derivePlan_completed, hsome, forall_stepRows]
  exact and_congr_right' (forall₃_congr fun s _ hrun => step_completed_iff h hseen halive hrun)

/-! ### Stages that nothing is recorded of -/

omit h hd in
/-- The first stage has the least index. -/
theorem head_stageIndexes_le {rows : List StepRows} {j : ℤ} (hhead : (stageIndexes rows).head? = some k)
    (hj : ∃ r ∈ rows, r.record.stageIndex = j) : k ≤ j := by
  have hsorted : (stageIndexes rows).Pairwise (· ≤ ·) := List.pairwise_insertionSort _ _
  have hmem := mem_stageIndexes.2 hj
  cases hlist : stageIndexes rows with
  | nil =>
    rw [hlist] at hmem
    cases hmem
  | cons a rest =>
    rw [hlist] at hhead hsorted hmem
    cases hhead
    rcases List.mem_cons.1 hmem with rfl | hmem
    · exact le_refl _
    · exact (List.pairwise_cons.1 hsorted).1 j hmem

/-- **A stage after another is blocked exactly if nothing is recorded of it.** -/
theorem Derived.blocked_iff (hmarked : ¬ Marked w.db runId rt) {j : ℤ}
    (hstage : findDependencyStage plan k = some stage) (hj : HasStage w.db runId j) (hjk : j < k) :
    stage.state = .blocked ↔ ¬ Touched w.db runId k := by
  obtain ⟨run, _, rfl, seen, hseen, rfl⟩ := hd.eq_derivePlan h.storedFailed hmarked
  rw [← DependencyPlan.withStoredFailure_none (derivePlan _ _ _ _)] at hstage
  obtain ⟨_, reason, rfl⟩ := findDependencyStage_derivePlan hstage
  obtain ⟨s, hs, hsrun, hsj⟩ := hj
  have hfirst : (stageIndexes (stepRows w.db run.id)).head? ≠ some k := fun hhead => by
    have := head_stageIndexes_le hhead ⟨_, mem_stepRows.2 ⟨s, hs, hsrun, rfl⟩, hsj⟩
    omega
  rw [deriveStage_blocked, and_iff_right hfirst]
  constructor
  · rintro hall ⟨s, hs, hrun, hk, hfact | ⟨m, hm, hof⟩⟩
    · have hnone := (hall _ (mem_stepRows.2 ⟨s, hs, hrun, rfl⟩) hk).2
      rw [← hrun] at hnone
      have hsome := rowsOfStep_fact.2 hfact
      rw [hnone] at hsome
      cases hsome
    · have hnil := (hall _ (mem_stepRows.2 ⟨s, hs, hrun, rfl⟩) hk).1
      rw [← hrun] at hnil
      have hmem := mem_rowsOfStep_memberships.2 ⟨hm, hof⟩
      rw [hnil] at hmem
      cases hmem
  · intro hnot r hr hk
    obtain ⟨s, hs, hrun, rfl⟩ := mem_stepRows.1 hr
    constructor
    · refine List.eq_nil_iff_forall_not_mem.2 fun m hm => hnot ⟨s, hs, hrun, hk, .inr ⟨m, ?_⟩⟩
      rw [← hrun] at hm
      exact mem_rowsOfStep_memberships.1 hm
    · rw [← Option.not_isSome_iff_eq_none, rowsOfStep_fact, ← hrun]
      exact fun hfact => hnot ⟨s, hs, hrun, hk, .inl hfact⟩

/-! ### The steps of a plan -/

variable {step : DependencyStep}

omit h in
/-- A step of the plan was derived from the rows of a step. -/
theorem Derived.exists_row (hstep : step ∈ plan.steps) :
    ∃ s ∈ w.db.dependencySteps, s.runId = runId ∧ ∃ r ∈ w.db.workflowInstances, r.id = runId ∧
      ∃ seen : Observations, ShowsTerminal w.db runId seen.terminal ∧ step = (rowsOfStep w.db runId s).derive runId
        (legacyWorkflowDependencyPlan rt r.submissionContextJson) seen := by
  obtain ⟨run, hrun, rfl, seen, hseen, hplan⟩ := hd
  rw [(reconstructPlan_ok.1 hplan).1, DependencyPlan.steps, DependencyPlan.withStoredFailure_stages,
    stages_derivePlan] at hstep
  obtain ⟨stage, hstage, hstep⟩ := List.mem_flatMap.1 hstep
  obtain ⟨k, _, rfl⟩ := List.mem_map.1 hstage
  rw [deriveStage_steps] at hstep
  obtain ⟨r, hr, rfl⟩ := List.mem_map.1 hstep
  obtain ⟨s, hs, hsrun, rfl⟩ := mem_stepRows.1 (mem_rowsOfStage.1 hr).1
  exact ⟨s, hs, hsrun, run, hrun, rfl, seen, hseen, rfl⟩

omit hd in
theorem Shape.legacy_none (hmarked : ¬ Marked w.db runId rt) {r : WorkflowRunRecord}
    (hr : r ∈ w.db.workflowInstances) (hid : r.id = runId) :
    legacyWorkflowDependencyPlan rt r.submissionContextJson = none := by
  cases hlegacy : legacyWorkflowDependencyPlan rt r.submissionContextJson with
  | none => rfl
  | some stored => exact absurd ⟨r, hr, hid, stored, hlegacy, h.storedFailed r hr stored hlegacy⟩ hmarked

/-- In a run that is not marked, a step of the plan was derived from the rows alone. -/
theorem Derived.exists_row_unmarked (hmarked : ¬ Marked w.db runId rt) (hstep : step ∈ plan.steps) :
    ∃ s ∈ w.db.dependencySteps, s.runId = runId ∧ ∃ seen : Observations, ShowsTerminal w.db runId seen.terminal ∧
      step = (rowsOfStep w.db runId s).derive runId none seen := by
  obtain ⟨s, hs, hsrun, r, hr, hid, seen, hseen, rfl⟩ := hd.exists_row hstep
  exact ⟨s, hs, hsrun, seen, hseen, by rw [h.legacy_none hmarked hr hid]⟩

/-- A step of the plan has its row, and shows an output only if one is recorded. -/
theorem Derived.step_row (hstep : step ∈ plan.steps) :
    ∃ s ∈ w.db.dependencySteps, s.runId = runId ∧ step.stageIndex = s.stageIndex ∧ step.stepIndex = s.stepIndex ∧
      (step.outputJson ≠ "" ∨ step.outputJsonSha256 ≠ "" → HasFact w.db s.runId s.stepIndex ∨ Marked w.db runId rt) := by
  by_cases hmarked : Marked w.db runId rt
  · obtain ⟨s, hs, rfl, r, hr, hid, seen, _, rfl⟩ := hd.exists_row hstep
    exact ⟨s, hs, rfl, StepRows.derive_index.1, StepRows.derive_index.2.1, fun _ => .inr hmarked⟩
  · obtain ⟨s, hs, rfl, seen, _, rfl⟩ := hd.exists_row_unmarked h hmarked hstep
    refine ⟨s, hs, rfl, StepRows.derive_index.1, StepRows.derive_index.2.1, fun houtput => .inl (rowsOfStep_fact.1 ?_)⟩
    exact houtput.elim StepRows.derive_output.1 StepRows.derive_output.2

omit h hd in
theorem findDependencyWorkItem_mem {id : String} {membership : DependencyMembership}
    (hfind : findDependencyWorkItem plan id = some (step, membership)) :
    step ∈ plan.steps ∧ membership ∈ step.workItems ∧ membership.workItemId = id := by
  obtain ⟨step', hstep', hfind⟩ := List.exists_of_findSome?_eq_some hfind
  obtain ⟨m, hm, hpair⟩ := Option.map_eq_some_iff.1 hfind
  cases hpair
  exact ⟨hstep', List.mem_of_find?_eq_some hm, by simpa using List.find?_some hm⟩

omit h in
/-- The work item that a plan has in a step is a member of the step. -/
theorem Derived.member_of_find {id : String} {membership : DependencyMembership}
    (hfind : findDependencyWorkItem plan id = some (step, membership)) :
    ∃ s ∈ w.db.dependencySteps, s.runId = runId ∧ step.stageIndex = s.stageIndex ∧ step.stepIndex = s.stepIndex ∧
      ∃ m ∈ w.db.dependencyWorkItems, MemberOf s m ∧ m.workItemId = id := by
  obtain ⟨hstep, hmem, rfl⟩ := findDependencyWorkItem_mem hfind
  obtain ⟨s, hs, rfl, r, _, _, seen, _, rfl⟩ := hd.exists_row hstep
  refine ⟨s, hs, rfl, StepRows.derive_index.1, StepRows.derive_index.2.1, ?_⟩
  rw [StepRows.derive_workItems] at hmem
  obtain ⟨m, hm, rfl⟩ := List.mem_map.1 hmem
  obtain ⟨hm, hof⟩ := mem_rowsOfStep_memberships.1 hm
  refine ⟨m, hm, hof, ?_⟩
  simp only
  split
  · rw [DependencyMembership.pruneCompleted_workItemId, deriveDependencyMembership_workItemId]
  · rw [deriveDependencyMembership_workItemId]

/-! ### The outputs a stage is compiled from -/

/-- The step of a row is in the plan. -/
theorem Derived.mem_steps (hmarked : ¬ Marked w.db runId rt) (hs : s ∈ w.db.dependencySteps) (hrun : s.runId = runId) :
    ∃ seen : Observations, ShowsTerminal w.db runId seen.terminal ∧
      (rowsOfStep w.db runId s).derive runId none seen ∈ plan.steps := by
  obtain ⟨run, _, rfl, seen, hseen, rfl⟩ := hd.eq_derivePlan h.storedFailed hmarked
  refine ⟨seen, hseen, ?_⟩
  have hrow : rowsOfStep w.db run.id s ∈ stepRows w.db run.id := mem_stepRows.2 ⟨s, hs, hrun, rfl⟩
  rw [DependencyPlan.steps, stages_derivePlan, List.mem_flatMap]
  refine ⟨_, List.mem_map_of_mem (mem_stageIndexes.2 ⟨_, hrow, rfl⟩), ?_⟩
  rw [deriveStage_steps]
  exact List.mem_map_of_mem (mem_rowsOfStage.2 ⟨hrow, rfl⟩)

omit hd in
/-- The steps of earlier stages have smaller indexes. -/
theorem Shape.stepIndex_lt (hmarked : ¬ Marked w.db runId rt) {s' : WorkflowDependencyStepRecord}
    (hs : s ∈ w.db.dependencySteps) (hs' : s' ∈ w.db.dependencySteps) (hrun : s.runId = runId)
    (hrun' : s'.runId = runId) (hlt : s.stageIndex < s'.stageIndex) : s.stepIndex < s'.stepIndex := by
  obtain ⟨r, hr, hid⟩ := h.planned s hs
  rw [← hrun, ← hid] at hmarked
  obtain ⟨workflow, stages, _, hstages, hiff⟩ := h.workflow r hr hmarked ⟨s, hs, hid.symm⟩
  have hmem : ∀ t ∈ w.db.dependencySteps, t.runId = runId → stageStep t ∈ stageSteps stages := fun t ht htrun =>
    (hiff _).2 ⟨t, ht, by rw [htrun, hid, hrun], rfl⟩
  exact (normalizeStages_staged hstages).stepIndex_lt (hmem s hs hrun) (hmem s' hs' hrun') hlt

omit h hd in
/-- A step whose output is in scope has one. -/
theorem stepScopeOutput_ok {output : String} (hscope : stepScopeOutput rt step = .ok output) :
    step.outputJson ≠ "" := by
  obtain ⟨_, hrules, _⟩ := except_bind_ok.1 hscope
  have := rules_ok.1 hrules
  simp only [List.mem_cons, List.not_mem_nil, or_false, forall_eq_or_imp, forall_eq] at this
  simpa using this.2.2

/-- **A stage is compiled only if all earlier steps have their outputs.** -/
theorem Derived.earlier_facts (hmarked : ¬ Marked w.db runId rt) (hstage : findDependencyStage plan k = some stage)
    {outputs : List String} (hscope : workflowStepScope rt plan (firstDependencyStepIndex stage) = .ok outputs) :
    ∀ s ∈ w.db.dependencySteps, s.runId = runId → s.stageIndex < k → HasFact w.db s.runId s.stepIndex := by
  intro s hs hrun hlt
  obtain ⟨_, _, hscope⟩ := except_bind_ok.1 hscope
  obtain ⟨seen, _, hmem⟩ := hd.mem_steps h hmarked hs hrun
  -- The first step of the stage comes after the step.
  have hfirst : s.stepIndex < firstDependencyStepIndex stage := by
    obtain ⟨run, _, rfl, seen', _, rfl⟩ := hd.eq_derivePlan h.storedFailed hmarked
    rw [← DependencyPlan.withStoredFailure_none (derivePlan _ _ _ _)] at hstage
    obtain ⟨⟨r, hr, hrk⟩, reason, rfl⟩ := findDependencyStage_derivePlan hstage
    rw [firstDependencyStepIndex, deriveStage_steps, List.map_map]
    cases hmin : (((rowsOfStage (stepRows w.db run.id) k).map
        ((·.stepIndex) ∘ fun x => x.derive run.id none seen')).min?) with
    | none =>
      rw [List.min?_eq_none_iff, List.map_eq_nil_iff] at hmin
      exact absurd (mem_rowsOfStage.2 ⟨hr, hrk⟩) (by simp [hmin])
    | some a =>
      obtain ⟨r', hr', rfl⟩ := List.mem_map.1 (List.min?_mem hmin)
      obtain ⟨hr', hk'⟩ := mem_rowsOfStage.1 hr'
      obtain ⟨s', hs', hrun', rfl⟩ := mem_stepRows.1 hr'
      have hindex : ((rowsOfStep w.db run.id s').derive run.id none seen').stepIndex = s'.stepIndex :=
        StepRows.derive_index.2.1
      simp only [Option.getD_some, Function.comp_apply, hindex]
      exact h.stepIndex_lt hmarked hs hs' hrun hrun' (hk'.symm ▸ hlt)
  obtain ⟨output, houtput, _⟩ := (mapM_forall hscope (P := fun _ => True)).1 (fun _ _ => trivial) _
    (List.mem_filter.2 ⟨(List.mem_insertionSort _).2 hmem, by
      rw [StepRows.derive_index.2.1]
      exact decide_eq_true hfirst⟩)
  rw [hrun]
  exact rowsOfStep_fact.1 (StepRows.derive_output.1 (stepScopeOutput_ok houtput))

end GoEtl.Controller
