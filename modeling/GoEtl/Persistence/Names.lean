import GoEtl.Persistence.Rows

/-!
# Names

Every work item and every run in the store has a name: each operation validates what it is given before it
begins a transaction, and an empty id does not pass. The queries that refuse an empty id therefore never refuse
one that they are given from the store.

**`named_after`**: work items and runs are named in every reachable state.
-/

namespace GoEtl.Persistence

open Library

variable {fk : Bool} {db db' : Store} {u : Unit}

/-- The work items and the runs have names. -/
structure Named (db : Store) : Prop where
  items : ∀ x ∈ db.workItems, x.id ≠ ""
  runs : ∀ run ∈ db.workflowInstances, run.id ≠ ""

/-! ### Work items -/

theorem id_ne_of_validateWorkItems {items : List WorkItemRecord} (h : validateWorkItems items = .ok u) :
    ∀ x ∈ items, x.id ≠ "" := by
  intro x hx
  have hvalid : x.validate = .ok () := (validateEach_ok.1 h).2 x hx
  simpa using rules_ok.1 hvalid _ List.mem_cons_self

/-- The work items that a committed operation inserts have names. -/
theorem Op.items_named {op : Op} (h : op.tx fk db = .ok (u, db')) : ∀ x ∈ op.items, x.id ≠ "" := by
  cases op with
  | insertWorkItems items =>
    obtain ⟨_, db₁, hchecked, _⟩ := Tx.bind_ok.1 h
    exact id_ne_of_validateWorkItems (validated_ok.1 hchecked).1
  | queueWorkItems request =>
    obtain ⟨hvalid, _⟩ := queueWorkItems_ok h
    obtain ⟨_, hitems, _⟩ := except_bind_ok.1 hvalid
    exact id_ne_of_validateWorkItems hitems
  | completeStageIfReady request =>
    obtain ⟨_, h⟩ := ignoreResult_ok h
    obtain ⟨_, db₁, hchecked, _⟩ := Tx.bind_ok.1 h
    obtain ⟨_, _, hvalid⟩ := except_bind_ok.1 (validated_ok.1 hchecked).1
    obtain ⟨_, hitems, _⟩ := except_bind_ok.1 hvalid
    intro x hx
    have hx : x ∈ request.readyWorkItems := hx
    rw [unlessEmpty, if_neg (by simpa using List.ne_nil_of_mem hx)] at hitems
    exact id_ne_of_validateWorkItems (wrapError_ok.1 hitems) x hx
  | _ => exact fun x hx => absurd hx List.not_mem_nil

theorem Move.workItems_of_inserts {e : Event} (h : Move db e db') :
    db'.workItems = db.workItems ∨ ∃ item, e = .insertItem item ∧ ∀ x ∈ db'.workItems, x ∈ db.workItems ∨ x = item := by
  cases h with
  | insertItem hinsert => exact .inr ⟨_, rfl, fun x hx => (Table.mem_insert hinsert).1 hx⟩
  | _ => exact .inl rfl

/-! ### Runs -/

/-- The runs are those there were. -/
def SameRuns (db db' : Store) : Prop := db'.workflowInstances = db.workflowInstances

theorem Move.frame {e : Event} (h : Move db e db') (he : e ≠ .catalog) :
    SameRuns db db' ∧ db'.workflowStages = db.workflowStages := by
  cases h
  · exact absurd rfl he
  all_goals exact ⟨rfl, rfl⟩

theorem completeReadyStage_ok {request : CompleteStageRequest} (h : completeReadyStage fk request db = .ok (u, db')) :
    ∃ stages items constraints queued,
      db' = { db with workflowStages := stages, workItems := items, resourceConstraints := constraints, queuedWork := queued } ∧
      db.workflowStages.update request.isStage request.completedStage = .ok stages ∧
      (∀ x ∈ request.readyWorkItems, x ∈ items) ∧ (∀ x ∈ request.readyResourceConstraints, x ∈ constraints) ∧
      ∀ q ∈ request.readyQueuedWork, queued.Has (·.workItemId) q.id := by
  obtain ⟨stages, hstages, _, h⟩ := writeBack_bind.1 h
  obtain ⟨items, constraints, queued, rfl, hitems, hconstraints, hqueued⟩ := publish_ok h
  exact ⟨stages, items, constraints, queued, rfl, hstages, fun x hx => (hitems x).2 (.inr hx),
    fun x hx => (hconstraints x).2 (.inr hx), fun q hq => (hqueued q.id).2 (.inr ⟨q, hq, rfl⟩)⟩

/-- Which operations write runs, and which write stages. -/
theorem Op.frame {op : Op} (h : op.tx fk db = .ok (u, db')) :
    (SameRuns db db' ∨ (∃ run, op = .createWorkflowRun run) ∨ ∃ runId json,
        op = .updateWorkflowRunSubmissionContext runId json) ∧
      (db'.workflowStages = db.workflowStages ∨ (∃ runId stages, op = .insertStagePlan runId stages) ∨
        ∃ request, op = .completeStageIfReady request) := by
  cases op with
  | createWorkflowRun run =>
    obtain ⟨_, ⟨_, rfl⟩ | ⟨t, _, rfl⟩⟩ := createWorkflowRun_ok h <;> exact ⟨.inr (.inl ⟨run, rfl⟩), .inl rfl⟩
  | updateWorkflowRunSubmissionContext runId json =>
    obtain ⟨t, _, rfl⟩ := updateWorkflowRunSubmissionContext_ok h
    exact ⟨.inr (.inr ⟨runId, json, rfl⟩), .inl rfl⟩
  | insertStagePlan runId stages =>
    obtain ⟨t, _, rfl⟩ := insertStagePlan_ok h
    exact ⟨.inl rfl, .inr (.inl ⟨runId, stages, rfl⟩)⟩
  | completeStageIfReady request =>
    obtain ⟨_, h⟩ := ignoreResult_ok h
    refine ⟨.inl ?_, .inr (.inr ⟨request, rfl⟩)⟩
    rcases completeStageIfReady_ok h with rfl | ⟨_, _, _, hcomplete⟩
    · rfl
    · obtain ⟨_, _, _, _, rfl, _⟩ := completeReadyStage_ok hcomplete
      rfl
  | upsertProject project =>
    obtain ⟨t, rfl⟩ := upsertProject_ok h
    exact ⟨.inl rfl, .inl rfl⟩
  | deleteProjectIfUnused projectId =>
    obtain ⟨_, h⟩ := ignoreResult_ok h
    obtain ⟨t, rfl⟩ := deleteProjectIfUnused_ok h
    exact ⟨.inl rfl, .inl rfl⟩
  | upsertWorkflow workflow =>
    obtain ⟨t, rfl⟩ := upsertWorkflow_ok h
    exact ⟨.inl rfl, .inl rfl⟩
  | deleteWorkflowIfUnused workflowId =>
    obtain ⟨_, h⟩ := ignoreResult_ok h
    obtain ⟨t, rfl⟩ := deleteWorkflowIfUnused_ok h
    exact ⟨.inl rfl, .inl rfl⟩
  | insertWorkflowDependencySteps steps =>
    obtain ⟨rfl, _⟩ | ⟨t, _, rfl⟩ := insertWorkflowDependencySteps_ok h <;> exact ⟨.inl rfl, .inl rfl⟩
  | insertWorkflowDependencyWorkItemMembership items =>
    obtain ⟨t, rfl⟩ := insertWorkflowDependencyWorkItemMembership_rows h
    exact ⟨.inl rfl, .inl rfl⟩
  | upsertWorkflowStepOutputFact fact =>
    obtain ⟨_, t, rfl, _⟩ := upsertWorkflowStepOutputFact_ok h
    exact ⟨.inl rfl, .inl rfl⟩
  | insertWorkItems items =>
    obtain ⟨_, h⟩ := validated_bind.1 h
    obtain ⟨t, rfl, _⟩ := insertWorkItems_ok h
    exact ⟨.inl rfl, .inl rfl⟩
  | queueWorkItems request =>
    obtain ⟨_, _, _, _, rfl, _⟩ := queueWorkItems_ok h
    exact ⟨.inl rfl, .inl rfl⟩
  | enqueueWorkItems items =>
    obtain ⟨_, rfl, _⟩ := enqueueWorkItemsOp_ok h
    exact ⟨.inl rfl, .inl rfl⟩
  | _ =>
    obtain ⟨hruns, hstages⟩ := (Op.tx_moves h).invariant
      (P := fun s => SameRuns db s ∧ s.workflowStages = db.workflowStages)
      (fun _ e _ he hmove hs => by
        have hne : e ≠ .catalog := by
          rintro rfl
          simp [Op.causes, Stops, Expires, ExpiresSession] at he
        exact ⟨(hmove.frame hne).1.trans hs.1, (hmove.frame hne).2.trans hs.2⟩) ⟨rfl, rfl⟩
    exact ⟨.inl hruns, .inl hstages⟩

/-- A run after a committed operation is one that was there, perhaps with another context, or is new and named. -/
theorem Op.runs_named {op : Op} (h : op.tx fk db = .ok (u, db')) :
    ∀ run ∈ db'.workflowInstances, run.id ≠ "" ∨ ∃ old ∈ db.workflowInstances, old.id = run.id := by
  intro r hr
  rcases (Op.frame h).1 with hsame | ⟨run, rfl⟩ | ⟨runId, json, rfl⟩
  · exact .inr ⟨r, hsame ▸ hr, rfl⟩
  · obtain ⟨hvalid, ⟨_, rfl⟩ | ⟨t, ht, rfl⟩⟩ := createWorkflowRun_ok h
    · exact .inr ⟨r, hr, rfl⟩
    · rcases (Table.mem_insert ht).1 hr with hr | rfl
      · exact .inr ⟨r, hr, rfl⟩
      · exact .inl (by simpa using rules_ok.1 hvalid _ List.mem_cons_self)
  · obtain ⟨t, ht, rfl⟩ := updateWorkflowRunSubmissionContext_ok h
    rcases (Table.mem_update ht).1 hr with ⟨old, hold, _, rfl⟩ | ⟨hr, _⟩
    · exact .inr ⟨old, hold, rfl⟩
    · exact .inr ⟨r, hr, rfl⟩

/-! ### Every reachable state -/

theorem Call.named {call : Call} (hdb : Named db) : Named (call.step db) := by
  rcases Tx.commit_cases (call.op.tx call.fk) db with ⟨_, _, hstep⟩ | ⟨_, db', htx, hstep⟩
  · rw [Call.step, hstep]
    exact hdb
  · rw [Call.step, hstep]
    refine ⟨?_, fun run hrun => ?_⟩
    · refine (Op.tx_moves htx).invariant (P := fun s => ∀ x ∈ s.workItems, x.id ≠ "") ?_ hdb.items
      intro s e t he hmove hs x hx
      rcases hmove.workItems_of_inserts with heq | ⟨item, rfl, hmem⟩
      · exact hs x (heq ▸ hx)
      · rcases hmem x hx with hx | rfl
        · exact hs x hx
        · exact Op.items_named htx x (Op.causes_inserts he rfl)
    · rcases Op.runs_named htx run hrun with hid | ⟨old, hold, hid⟩
      · exact hid
      · exact hid ▸ hdb.runs old hold

/-- **Work items and runs are named** in every reachable state. -/
theorem named_after (calls : List Call) : Named (after calls) :=
  run_invariant (C := fun _ _ => True) (fun _ _ _ => Call.named) (fun _ _ => trivial)
    ⟨fun _ hx => absurd hx Table.not_mem_empty, fun _ hr => absurd hr Table.not_mem_empty⟩

end GoEtl.Persistence
