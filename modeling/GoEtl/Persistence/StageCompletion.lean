import GoEtl.Persistence.Names

/-!
# Completing stages

`CompleteStageIfReady` over runs of the store. A stage row that is not completed becomes so in one call, when the work
of the stage is done, and the work that the call names is published in it (`Call.completes_stage`). From then on the
row stays (`Call.completed_stays`), and a request for it writes nothing (`completeStageIfReady_completed`).
-/

namespace GoEtl.Persistence

open Library

variable {fk : Bool} {db db' : Store} {request : CompleteStageRequest} {stage stage' : WorkflowStageRecord}

/-- **The work of a stage is done**: there is some, all of it has completed, and none is queued, running or failed. -/
structure StageDone (db : Store) (runId : String) (stageIndex : ℤ) : Prop where
  some_item : ∃ w ∈ db.workItems, w.runId = runId ∧ w.stageIndex = stageIndex
  all_items : ∀ w ∈ db.workItems, w.runId = runId → w.stageIndex = stageIndex →
    IsCompleted db w.id ∧ ¬ IsQueued db w.id ∧ ¬ IsRunning db w.id ∧ ¬ IsFailed db w.id

/-- The work that the request names is there, and queued. -/
structure Published (request : CompleteStageRequest) (db : Store) : Prop where
  items : ∀ x ∈ request.readyWorkItems, x ∈ db.workItems
  constraints : ∀ x ∈ request.readyResourceConstraints, x ∈ db.resourceConstraints
  queued : ∀ q ∈ request.readyQueuedWork, IsQueued db q.id

/-- The counts of `stageWorkComplete` say that the work is done: as many different items have completed as there are. -/
theorem stageDone_of_complete {runId : String} {stageIndex : ℤ} (h : stageWorkComplete db runId stageIndex = true) :
    StageDone db runId stageIndex := by
  simp only [stageWorkComplete, Bool.and_eq_true, beq_iff_eq, decide_eq_true_eq, Table.count_eq_zero] at h
  obtain ⟨⟨⟨⟨hsome, hall⟩, hqueued⟩, hrunning⟩, hfailed⟩ := h
  let inStage (w : WorkItemRecord) : Bool := w.runId == runId && w.stageIndex == stageIndex
  let items := (db.workItems.rows.filter inStage).map (·.id)
  have hin : ∀ w ∈ db.workItems, w.runId = runId → w.stageIndex = stageIndex →
      isStageItem db runId stageIndex w.id = true :=
    fun w hw hrun hindex => Table.any_eq_true.2 ⟨w, hw, by simp [hrun, hindex]⟩
  have hnodup : items.Nodup := by
    refine List.pairwise_map.2 ((db.workItems.distinct.sublist List.filter_sublist).imp fun hab heq => ?_)
    simp [Schema.workItems, Schema.keyed, Schema.unique, heq] at hab
  have hsub : ((db.completedWork.rows.map (·.workItemId)).filter (isStageItem db runId stageIndex)).dedup ⊆ items := by
    intro id hid
    obtain ⟨w, hw, hid⟩ := Table.any_eq_true.1 (List.mem_filter.1 (List.mem_dedup.1 hid)).2
    simp only [Bool.and_eq_true, beq_iff_eq] at hid
    exact List.mem_map.2 ⟨w, List.mem_filter.2 ⟨hw, by simp [inStage, hid]⟩, hid.1.1⟩
  have hperm := (List.subperm_of_subset (List.nodup_dedup _) hsub).perm_of_length_le
    (by rw [hall, List.length_map, Table.count, List.countP_eq_length_filter])
  constructor
  · obtain ⟨w, hw, hstage⟩ := List.countP_pos_iff.1 hsome
    exact ⟨w, hw, by simpa using hstage⟩
  · intro w hw hrun hindex
    have hno : ∀ {ρ : Type} {S : Schema ρ} {t : Table S} {f : ρ → String},
        (∀ r ∈ t, isStageItem db runId stageIndex (f r) = false) → ¬ t.Has f w.id := by
      rintro ρ S t f hnone ⟨r, hr, hid⟩
      have := hnone r hr
      rw [hid, hin w hw hrun hindex] at this
      cases this
    refine ⟨?_, hno hqueued, hno hrunning, hno hfailed⟩
    have hid : w.id ∈ items := List.mem_map.2 ⟨w, List.mem_filter.2 ⟨hw, by simp [inStage, hrun, hindex]⟩, rfl⟩
    obtain ⟨r, hr, hid⟩ := List.mem_map.1 (List.mem_filter.1 (List.mem_dedup.1 (hperm.mem_iff.2 hid))).1
    exact ⟨r, hr, hid⟩

/-! ### One call -/

/-- The row of a stage is the only one. -/
theorem stage_unique (hstage : stage ∈ db.workflowStages) (hstage' : stage' ∈ db.workflowStages)
    (hrun : stage'.runId = stage.runId) (hindex : stage'.stageIndex = stage.stageIndex) : stage' = stage :=
  Table.eq_of_clash hstage' hstage (by simp [Schema.workflowStages, hrun, hindex])

theorem lookup_isStage (hstage : stage ∈ db.workflowStages) (his : request.isStage stage = true) :
    db.workflowStages.lookup request.isStage = some stage := by
  refine Table.lookup_eq_some (fun a b ha hb => ?_) hstage his
  simp only [CompleteStageRequest.isStage, Bool.and_eq_true, beq_iff_eq] at ha hb
  simp [Schema.workflowStages, ha, hb]

/-- **A request for a completed stage** is accepted if it has the values of the row. It writes nothing. -/
theorem completeStageIfReady_completed (hstage : stage ∈ db.workflowStages) (his : request.isStage stage = true)
    (hstate : stage.state = .completed) {result : CompleteStageResult} :
    completeStageIfReady fk request db = .ok (result, db') ↔ request.validate = .ok () ∧
      stageMatchesCompletionRequest stage request = true ∧ result = ⟨some stage, true⟩ ∧ db' = db := by
  rw [completeStageIfReady, validated_bind, Tx.read_bind]
  simp only [lookup_isStage hstage his, hstate, exists_eq_left', Tx.failIf_bind, Tx.pure_ok, Bool.not_eq_false',
    eq_comm (a := result), eq_comm (a := db')]

/-- **A completed row stays.** -/
theorem Call.completed_stays (call : Call) (hstage : stage ∈ db.workflowStages) (hstate : stage.state = .completed) :
    stage ∈ (call.step db).workflowStages := by
  rcases Tx.commit_cases (call.op.tx call.fk) db with ⟨_, _, hstep⟩ | ⟨_, db', htx, hstep⟩
  · rwa [Call.step, hstep]
  rw [Call.step, hstep]
  rcases (Op.frame htx).2 with hsame | ⟨runId, stages, hop⟩ | ⟨request, hop⟩
  · rwa [hsame]
  · rw [hop] at htx
    obtain ⟨t, ht, rfl⟩ := insertStagePlan_ok htx
    exact (ht stage).1 hstage
  · rw [hop] at htx
    obtain ⟨_, htx⟩ := ignoreResult_ok htx
    rcases completeStageIfReady_ok htx with rfl | ⟨_, ⟨found, hfound, hopen⟩, _, hwrites⟩
    · exact hstage
    obtain ⟨stages, _, _, _, rfl, hupdate, _⟩ := completeReadyStage_ok hwrites
    refine (Table.mem_update hupdate).2 (.inr ⟨hstage, Bool.eq_false_iff.2 fun his => hopen ?_⟩)
    rw [lookup_isStage hstage his] at hfound
    cases hfound
    exact hstate

/-- **A stage becomes completed** in a request for it, when its work is done. The ready work is published with it. -/
theorem Call.completes_stage (call : Call) (hstage : stage ∈ db.workflowStages)
    (hstage' : stage' ∈ (call.step db).workflowStages) (hrun : stage'.runId = stage.runId)
    (hindex : stage'.stageIndex = stage.stageIndex) (hopen : stage.state ≠ .completed) (hstate : stage'.state = .completed) :
    ∃ request, call.op = .completeStageIfReady request ∧ request.validate = .ok () ∧
      stage' = request.completedStage stage ∧ stageMatchesCompletionRequest stage' request = true ∧
      StageDone db stage.runId stage.stageIndex ∧ Published request (call.step db) := by
  -- Where the row is still there, it is the row of the stage.
  have hold : ∀ s : Store, stage ∈ s.workflowStages → stage' ∈ s.workflowStages → False := by
    intro s hs hs'
    rw [stage_unique hs hs' hrun hindex] at hstate
    exact hopen hstate
  rcases Tx.commit_cases (call.op.tx call.fk) db with ⟨_, _, hstep⟩ | ⟨_, db', htx, hstep⟩
  · rw [Call.step, hstep] at hstage'
    exact (hold db hstage hstage').elim
  rw [Call.step, hstep] at hstage' ⊢
  rcases (Op.frame htx).2 with hsame | ⟨runId, stages, hop⟩ | ⟨request, hop⟩
  · exact (hold db hstage (hsame ▸ hstage')).elim
  · rw [hop] at htx
    obtain ⟨t, ht, rfl⟩ := insertStagePlan_ok htx
    exact (hold _ ((ht stage).1 hstage) hstage').elim
  · rw [hop] at htx
    obtain ⟨_, htx⟩ := ignoreResult_ok htx
    rcases completeStageIfReady_ok htx with rfl | ⟨hvalid, _, hcomplete, hwrites⟩
    · exact (hold _ hstage hstage').elim
    obtain ⟨stages, items, constraints, queued, rfl, hupdate, hitems, hconstraints, hqueued⟩ :=
      completeReadyStage_ok hwrites
    rcases (Table.mem_update hupdate).1 hstage' with ⟨row, hrow, his, rfl⟩ | ⟨hstage', _⟩
    · obtain rfl : row = stage := stage_unique hstage hrow hrun hindex
      have his' := his
      simp only [CompleteStageRequest.isStage, Bool.and_eq_true, beq_iff_eq] at his'
      refine ⟨request, hop, hvalid, rfl, ?_, ?_, hitems, hconstraints, hqueued⟩
      · simp [stageMatchesCompletionRequest, CompleteStageRequest.completedStage, his']
      · rw [his'.1, his'.2]
        exact stageDone_of_complete hcomplete
    · exact (hold db hstage hstage').elim

/-! ### Runs -/

/-- **Stages are completed once**, in every run of the store. A stage row that is not completed becomes so only in a
request for it, in a state where its work is done, and the ready work of the request is published in that step. From
then on the row stays, whatever is called. A request for it is accepted exactly if it passes its checks and has the
completion time and the output of the row, and it changes nothing then. A call that fails changes nothing. -/
theorem stage_completed_once (calls : List Call) :
    (∀ x ∈ steps calls, ∀ stage ∈ x.1.workflowStages, ∀ stage' ∈ x.2.2.workflowStages, stage'.runId = stage.runId →
      stage'.stageIndex = stage.stageIndex → stage.state ≠ .completed → stage'.state = .completed →
      ∃ request, x.2.1.op = .completeStageIfReady request ∧ request.validate = .ok () ∧
        stage' = request.completedStage stage ∧ stageMatchesCompletionRequest stage' request = true ∧
        StageDone x.1 stage.runId stage.stageIndex ∧ Published request x.2.2) ∧
    (∀ stage ∈ (after calls).workflowStages, stage.state = .completed → ∀ later,
      stage ∈ (after (calls ++ later)).workflowStages ∧
      ∀ fk request result db', request.isStage stage = true →
        (completeStageIfReady fk request (after (calls ++ later)) = .ok (result, db') ↔ request.validate = .ok () ∧
          stageMatchesCompletionRequest stage request = true ∧ result = ⟨some stage, true⟩ ∧ db' = after (calls ++ later))) ∧
    ∀ x ∈ steps calls, x.2.1.fails x.1 → x.2.2 = x.1 := by
  refine ⟨fun x hx stage hstage stage' hstage' hrun hindex hopen hstate => ?_, fun stage hstage hstate later => ?_,
    fun x hx hfails => ?_⟩
  · rw [apply_of_mem_trace hx] at hstage' ⊢
    exact x.2.1.completes_stage hstage hstage' hrun hindex hopen hstate
  · have hstays : stage ∈ (after (calls ++ later)).workflowStages := by
      rw [after, run_append]
      exact run_invariant (P := fun db : Store => stage ∈ db.workflowStages) (C := fun _ _ => True)
        (fun _ call _ hmem => call.completed_stays hmem hstate) (fun _ _ => trivial) hstage
    exact ⟨hstays, fun fk request result db' his => completeStageIfReady_completed hstays his hstate⟩
  · rw [apply_of_mem_trace hx]
    exact Call.step_of_fails hfails

namespace Sample

/-- The one work item of the stage has completed. -/
def finished : List Call := submission ++ [queue "a" 0 [], register "worker" "session",
  claim "attempt" "worker" "session", completeAs "attempt" "worker" "session"]

/-- A request that completes the stage and publishes a work item. -/
def completion : CompleteStageRequest :=
  ⟨"run", 0, object, "sha", second 4, [item "b" 1], [], [queued "b" 1 (second 4)]⟩

/-- The row of the stage. -/
def openStage : WorkflowStageRecord := ⟨"run", 0, "step", "reference", .ready, second 0, "", "", "", "", "", ""⟩

end Sample

theorem stage_completed_once_sample : StageDone (after Sample.finished) "run" 0 ∧
    Published Sample.completion (after (Sample.finished ++ [⟨true, .completeStageIfReady Sample.completion⟩])) := by
  obtain ⟨request, hop, _, _, _, hdone, hpublished⟩ :=
    (stage_completed_once (Sample.finished ++ [⟨true, .completeStageIfReady Sample.completion⟩])).1
      (nextStep Sample.finished _) (nextStep_mem _ _ []) Sample.openStage (by decide +kernel)
      (Sample.completion.completedStage Sample.openStage) (by decide +kernel) rfl rfl (by decide) rfl
  cases hop
  exact ⟨hdone, hpublished⟩

/-- A plan with a stage that is completed. -/
def Sample.completedPlan : List Call :=
  submission.take 3 ++ [⟨true, .insertStagePlan "run" [{ openStage with state := .completed }]⟩]

/-- The stage of such a plan is stored as completed, and it has no work. -/
theorem Sample.planned_completed : (∃ stage ∈ (after completedPlan).workflowStages, stage.state = .completed) ∧
    (after completedPlan).workItems.rows = [] := by
  refine ⟨⟨{ openStage with state := .completed }, ?_, rfl⟩, ?_⟩ <;> decide +kernel

end GoEtl.Persistence
