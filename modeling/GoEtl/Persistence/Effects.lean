import GoEtl.Persistence.Moves

/-!
# Operations as sequences of moves

One lemma per operation: if it commits, moves of the kinds it can cause lead from the database
before to the database after. The operations on the catalog write one table each, and share one lemma for that,
`OnlyCatalog.moves`; the others are taken apart statement by statement.

The two recoveries are where a move is more than one statement. A session has at most one running
row, by the partial unique index on `running_work`, so a session's end and the loop over its running
work is one move (`recoverStoppedWork_move`, `recoverExpiredWork_move`).
-/

namespace GoEtl.Persistence

open Library

variable {fk : Bool} {db db' : Store} {u : Unit}

/-! ### The catalog -/

/-- Only catalog tables differ. -/
def OnlyCatalog (db db' : Store) : Prop :=
  db' =
    { db with
      projects := db'.projects, workflows := db'.workflows, workflowInstances := db'.workflowInstances,
      workflowStages := db'.workflowStages, dependencySteps := db'.dependencySteps,
      dependencyWorkItems := db'.dependencyWorkItems, stepOutputFacts := db'.stepOutputFacts }

theorem OnlyCatalog.moves {C : Event → Prop} (h : OnlyCatalog db db') (hC : C .catalog) :
    Moves C db db' := by
  rw [h]
  exact .single (.catalog _ _ _ _ _ _ _) hC

/-- An idempotent insert of a row into a table: the row was there, or it is new. -/
theorem insertOnce_row {ρ : Type} [DecidableEq ρ] {S : Schema ρ} {table : Store → Table S} {p : ρ → Bool}
    {row : ρ} {differs : String} {parents : Store → Bool} {put : Store → Table S → Store}
    {err : Violation → StoreError}
    (h : insertOnce (fun db => (table db).lookup p) row differs
      (Tx.exec (fun db => writeBack fk (parents db) (put db) ((table db).insert row)) err) db = .ok (u, db')) :
    (row ∈ table db ∧ db' = db) ∨ ∃ t, (table db).insert row = .ok t ∧ db' = put db t := by
  rcases insertOnce_ok h with ⟨hfound, rfl⟩ | ⟨_, h⟩
  · exact .inl ⟨(Table.lookup_mem hfound).1, rfl⟩
  · obtain ⟨t, ht, _, rfl⟩ := writeBack_ok.1 (Tx.exec_ok.1 h)
    exact .inr ⟨t, ht, rfl⟩

theorem upsertProject_ok {project : ProjectRecord} (h : upsertProject fk project db = .ok (u, db')) :
    ∃ t, db' = { db with projects := t } := by
  obtain ⟨_, h⟩ := validated_bind.1 h
  rcases insertOnce_row h with ⟨_, rfl⟩ | ⟨t, _, rfl⟩
  · exact ⟨_, rfl⟩
  · exact ⟨t, rfl⟩

theorem upsertWorkflow_ok {workflow : WorkflowRecord} (h : upsertWorkflow fk workflow db = .ok (u, db')) :
    ∃ t, db' = { db with workflows := t } := by
  obtain ⟨_, h⟩ := validated_bind.1 h
  rcases insertOnce_row h with ⟨_, rfl⟩ | ⟨t, _, rfl⟩
  · exact ⟨_, rfl⟩
  · exact ⟨t, rfl⟩

/-- A run is there already, or it is new. -/
theorem createWorkflowRun_ok {run : WorkflowRunRecord} (h : createWorkflowRun fk run db = .ok (u, db')) :
    run.validate = .ok () ∧
      ((run ∈ db.workflowInstances ∧ db' = db) ∨
        ∃ t, db.workflowInstances.insert run = .ok t ∧ db' = { db with workflowInstances := t }) := by
  obtain ⟨hvalid, h⟩ := validated_bind.1 h
  exact ⟨hvalid, insertOnce_row h⟩

theorem updateWorkflowRunSubmissionContext_ok {runId json : String}
    (h : updateWorkflowRunSubmissionContext runId json db = .ok (u, db')) :
    ∃ t, db.workflowInstances.update (·.id == runId) ({ · with submissionContextJson := json }) = .ok t ∧
      db' = { db with workflowInstances := t } := by
  obtain ⟨_, h⟩ := Tx.failIf_bind.1 h
  obtain ⟨_, h⟩ := Tx.failIf_bind.1 h
  obtain ⟨updated, rfl, h⟩ := Tx.read_bind.1 h
  obtain ⟨_, db₁, hexec, h⟩ := Tx.bind_ok.1 h
  obtain ⟨_, rfl⟩ := Tx.failIf_ok.1 h
  obtain ⟨t, ht, _, rfl⟩ := writeBack_ok.1 (Tx.exec_ok.1 hexec)
  exact ⟨t, ht, rfl⟩

theorem deleteProjectIfUnused_ok {projectId : String} {deleted : Bool}
    (h : deleteProjectIfUnused fk projectId db = .ok (deleted, db')) : ∃ t, db' = { db with projects := t } := by
  obtain ⟨_, h⟩ := Tx.failIf_bind.1 h
  obtain ⟨count, rfl, h⟩ := Tx.read_bind.1 h
  split at h
  · obtain ⟨_, rfl⟩ := Tx.pure_ok.1 h
    exact ⟨_, rfl⟩
  · obtain ⟨found, rfl, h⟩ := Tx.read_bind.1 h
    obtain ⟨_, hexec, _⟩ := Tx.bind_pure_ok.1 h
    obtain ⟨t, _, _, rfl⟩ := writeBack_ok.1 (Tx.exec_ok.1 hexec)
    exact ⟨t, rfl⟩

theorem deleteWorkflowIfUnused_ok {workflowId : String} {deleted : Bool}
    (h : deleteWorkflowIfUnused workflowId db = .ok (deleted, db')) : ∃ t, db' = { db with workflows := t } := by
  obtain ⟨_, h⟩ := Tx.failIf_bind.1 h
  obtain ⟨count, rfl, h⟩ := Tx.read_bind.1 h
  split at h
  · obtain ⟨_, rfl⟩ := Tx.pure_ok.1 h
    exact ⟨_, rfl⟩
  · obtain ⟨found, rfl, h⟩ := Tx.read_bind.1 h
    obtain ⟨_, hexec, _⟩ := Tx.bind_pure_ok.1 h
    cases Tx.exec_ok.1 hexec
    exact ⟨_, rfl⟩

section Inserts

variable {ρ : Type} {S : Schema ρ} {f : Store → Table S} {g : Store → Table S → Store} {parents : ρ → Store → Bool}
  {err : ρ → Violation → StoreError} (hget : ∀ db t, f (g db t) = t) (hput : ∀ db t t', g (g db t) t' = g db t')
  (hself : ∀ db, g db (f db) = db) {rows : List ρ}

include hget hput hself

/-- A loop of inserts into one table adds the rows in order. -/
theorem forM_insert
    (h : (rows.forM fun row => Tx.exec (fun db => writeBack fk (parents row db) (g db) ((f db).insert row))
      (err row)) db = .ok (u, db')) :
    ∃ t, t.rows = (f db).rows ++ rows ∧ db' = g db t := by
  induction rows generalizing db with
  | nil =>
    obtain rfl := Tx.forM_nil_ok.1 h
    exact ⟨f db, by simp, (hself db).symm⟩
  | cons row rows ih =>
    obtain ⟨db₁, hrow, h⟩ := Tx.forM_cons_ok.1 h
    obtain ⟨t, ht, _, rfl⟩ := writeBack_ok.1 (Tx.exec_ok.1 hrow)
    obtain ⟨t', hrows, rfl⟩ := ih h
    refine ⟨t', ?_, hput _ _ _⟩
    rw [hrows, hget, (Table.insert_ok ht).1, List.append_assoc, List.singleton_append]

/-- Each row is there already, or it is new. -/
theorem forM_insertOnce [DecidableEq ρ] {p : ρ → ρ → Bool} {differs : ρ → String}
    (h : (rows.forM fun row => insertOnce (fun db => (f db).lookup (p row)) row (differs row)
      (Tx.exec (fun db => writeBack fk (parents row db) (g db) ((f db).insert row)) (err row))) db = .ok (u, db')) :
    ∃ t, db' = g db t ∧ ∀ x, x ∈ t ↔ x ∈ f db ∨ x ∈ rows := by
  induction rows generalizing db with
  | nil =>
    obtain rfl := Tx.forM_nil_ok.1 h
    exact ⟨f db, (hself db).symm, by simp⟩
  | cons row rows ih =>
    obtain ⟨db₁, hrow, h⟩ := Tx.forM_cons_ok.1 h
    obtain ⟨t, rfl, ht⟩ := ih h
    rcases insertOnce_row hrow with ⟨hmem, rfl⟩ | ⟨t', ht', rfl⟩
    · refine ⟨t, rfl, fun x => ?_⟩
      rw [ht x, List.mem_cons]
      exact ⟨Or.imp_right .inr, by rintro (hx | rfl | hx) <;> simp_all⟩
    · refine ⟨t, hput _ _ _, fun x => ?_⟩
      rw [ht x, hget, Table.mem_insert ht', List.mem_cons, or_assoc]

end Inserts

theorem insertStagePlan_ok {runId : String} {stages : List WorkflowStageRecord}
    (h : insertStagePlan fk runId stages db = .ok (u, db')) :
    ∃ t, (∀ stage, (stage ∈ db.workflowStages → stage ∈ t) ∧ (stage ∈ t → stage ∈ db.workflowStages ∨ stage ∈ stages)) ∧
      db' = { db with workflowStages := t } := by
  obtain ⟨_, h⟩ := Tx.failIf_bind.1 h
  obtain ⟨_, h⟩ := Tx.failIf_bind.1 h
  obtain ⟨_, h⟩ := validated_bind.1 h
  obtain ⟨existing, rfl, h⟩ := Tx.read_bind.1 h
  split at h
  · obtain ⟨_, rfl⟩ := Tx.failIf_ok.1 h
    exact ⟨_, fun _ => ⟨id, .inl⟩, rfl⟩
  · obtain ⟨t, ht, rfl⟩ := forM_insert (f := Store.workflowStages) (g := fun db t => { db with workflowStages := t })
      (fun _ _ => rfl) (fun _ _ _ => rfl) (fun _ => rfl) h
    refine ⟨t, fun stage => ?_, rfl⟩
    rw [← Table.mem_rows (t := t), ht, List.mem_append]
    exact ⟨.inl, id⟩

/-- The dependency steps of a run are there already, or they are new. -/
theorem insertWorkflowDependencySteps_ok {steps : List WorkflowDependencyStepRecord}
    (h : insertWorkflowDependencySteps fk steps db = .ok (u, db')) :
    (db' = db ∧ ∀ s ∈ steps, s ∈ db.dependencySteps) ∨
      ∃ t, (∀ s, s ∈ t ↔ s ∈ db.dependencySteps ∨ s ∈ steps) ∧ db' = { db with dependencySteps := t } := by
  obtain ⟨hvalid, h⟩ := validated_bind.1 h
  obtain ⟨existing, rfl, h⟩ := Tx.read_bind.1 h
  split at h
  · obtain ⟨hsame, rfl⟩ := Tx.failIf_ok.1 h
    refine .inl ⟨rfl, fun s hs => ?_⟩
    have hmem := (List.mem_insertionSort (fun a b => a.before b) (l := steps)).2 hs
    rw [← show _ = steps.insertionSort _ by simpa using hsame] at hmem
    simp only [listWorkflowDependencySteps, List.mem_insertionSort, List.mem_filter] at hmem
    exact hmem.1
  · obtain ⟨t, ht, rfl⟩ := forM_insert (f := Store.dependencySteps)
      (g := fun db t => { db with dependencySteps := t }) (fun _ _ => rfl) (fun _ _ _ => rfl) (fun _ => rfl) h
    refine .inr ⟨t, fun s => ?_, rfl⟩
    show s ∈ t.rows ↔ s ∈ db.dependencySteps.rows ∨ _
    rw [ht, List.mem_append, List.mem_insertionSort]

theorem insertWorkflowDependencyWorkItemMembership_rows {items : List WorkflowDependencyWorkItemRecord}
    (h : insertWorkflowDependencyWorkItemMembership fk items db = .ok (u, db')) :
    ∃ t, db' = { db with dependencyWorkItems := t } := by
  obtain ⟨_, h⟩ := validated_bind.1 h
  obtain ⟨t, rfl, _⟩ := forM_insertOnce (f := Store.dependencyWorkItems) (g := fun db t => { db with dependencyWorkItems := t })
    (fun _ _ => rfl) (fun _ _ _ => rfl) (fun _ => rfl) h
  exact ⟨t, rfl⟩

/-- A membership is there already, or it is new. -/
theorem insertWorkflowDependencyWorkItemMembership_ok {m : WorkflowDependencyWorkItemRecord}
    (h : insertWorkflowDependencyWorkItemMembership fk [m] db = .ok (u, db')) :
    validateWorkflowDependencyWorkItemRecords [m] = .ok () ∧
      ((m ∈ db.dependencyWorkItems ∧ db' = db) ∨
        ∃ t, db.dependencyWorkItems.insert m = .ok t ∧ db' = { db with dependencyWorkItems := t }) := by
  obtain ⟨hvalid, h⟩ := validated_bind.1 h
  obtain ⟨db₁, hm, h⟩ := Tx.forM_cons_ok.1 h
  obtain rfl := Tx.forM_nil_ok.1 h
  exact ⟨hvalid, insertOnce_row hm⟩

/-- The key of an output fact. -/
def WorkflowStepOutputFactRecord.key (fact : WorkflowStepOutputFactRecord) : String × ℤ :=
  (fact.runId, fact.stepIndex)

/-- The output fact of a step replaces the one that was there, or it is new. -/
theorem upsertWorkflowStepOutputFact_ok {fact : WorkflowStepOutputFactRecord}
    (h : upsertWorkflowStepOutputFact fk fact db = .ok (u, db')) :
    fact.validate = .ok () ∧ ∃ t, db' = { db with stepOutputFacts := t } ∧
      (∀ x ∈ t, x ∈ db.stepOutputFacts ∨ ∃ createdAt, x = { fact with createdAt := createdAt }) ∧
      ∀ k, t.Has (·.key) k ↔ db.stepOutputFacts.Has (·.key) k ∨ fact.key = k := by
  obtain ⟨hvalid, h⟩ := validated_bind.1 h
  obtain ⟨t, ht, _, rfl⟩ := writeBack_ok.1 (Tx.exec_ok.1 h)
  refine ⟨hvalid, t, rfl, ?_⟩
  have hsame : ∀ r : WorkflowStepOutputFactRecord,
      (r.runId == fact.runId && r.stepIndex == fact.stepIndex) = true ↔ r.key = fact.key := by
    simp [WorkflowStepOutputFactRecord.key]
  split at ht
  · rename_i hany
    obtain ⟨old, hold, hkey⟩ := Table.any_eq_true.1 hany
    have hmem := fun x => Table.mem_update (x := x) ht
    refine ⟨fun x hx => ?_, fun k => ⟨?_, ?_⟩⟩
    · rcases (hmem x).1 hx with ⟨r, _, _, rfl⟩ | ⟨hx, _⟩
      · exact .inr ⟨r.createdAt, rfl⟩
      · exact .inl hx
    · rintro ⟨x, hx, rfl⟩
      rcases (hmem x).1 hx with ⟨r, _, _, rfl⟩ | ⟨hx, _⟩
      · exact .inr rfl
      · exact .inl ⟨x, hx, rfl⟩
    · rintro (⟨x, hx, rfl⟩ | rfl)
      · by_cases hxk : x.key = fact.key
        · exact ⟨_, (hmem _).2 (.inl ⟨old, hold, hkey, rfl⟩), hxk.symm⟩
        · exact ⟨x, (hmem x).2 (.inr ⟨hx, Bool.eq_false_iff.2 (mt (hsame x).1 hxk)⟩), rfl⟩
      · exact ⟨_, (hmem _).2 (.inl ⟨old, hold, hkey, rfl⟩), rfl⟩
  · refine ⟨fun x hx => ?_, fun k => Table.has_insert ht⟩
    rcases (Table.mem_insert ht).1 hx with hx | rfl
    · exact .inl hx
    · exact .inr ⟨_, rfl⟩

/-! ### The queue -/

/-- The events that inserting and queueing these rows can cause. -/
def Queues (items : List WorkItemRecord) (constraints : List WorkItemResourceConstraintRecord)
    (queued : List QueuedWorkRecord) : Event → Prop
  | .catalog => True
  | .insertItem item => item ∈ items
  | .insertConstraint c => c ∈ constraints
  | .enqueue row => ∃ q ∈ queued, row = ⟨q.id, q.queuedAt⟩
  | _ => False

section Queue

variable {items : List WorkItemRecord} {constraints : List WorkItemResourceConstraintRecord}
  {queued : List QueuedWorkRecord}

theorem insertWorkItems_moves (h : insertWorkItems fk items db = .ok (u, db')) :
    Moves (Queues items constraints queued) db db' := by
  refine Tx.forM_rel Reaches.refl (fun _ _ _ => Reaches.trans) (fun item hitem s s' hs => ?_) h
  rcases insertOnce_ok hs with ⟨_, rfl⟩ | ⟨_, hs⟩
  · exact .refl _
  · obtain ⟨t, ht, _, rfl⟩ := writeBack_ok.1 (Tx.exec_ok.1 hs)
    exact .single (.insertItem ht) hitem

theorem insertWorkItemResourceConstraints_moves
    (h : insertWorkItemResourceConstraints fk constraints db = .ok (u, db')) :
    Moves (Queues items constraints queued) db db' := by
  refine Tx.forM_rel Reaches.refl (fun _ _ _ => Reaches.trans) (fun c hc s s' hs => ?_) h
  rcases insertOnce_ok hs with ⟨_, rfl⟩ | ⟨_, hs⟩
  · exact .refl _
  · obtain ⟨t, ht, _, rfl⟩ := writeBack_ok.1 (Tx.exec_ok.1 hs)
    exact .single (.insertConstraint ht) hc

/-- An enqueue leaves a queued item alone, or adds a row. -/
theorem enqueueWorkItem_ok {item : QueuedWorkRecord} (h : enqueueWorkItem fk item db = .ok (u, db')) :
    (db' = db ∧ ∃ row ∈ db.queuedWork, row.workItemId = item.id) ∨
      ∃ t, db.queuedWork.insert ⟨item.id, item.queuedAt⟩ = .ok t ∧ db' = { db with queuedWork := t } := by
  obtain ⟨found, hfound, h⟩ := Tx.read_bind.1 h
  cases found with
  | some row =>
    obtain ⟨_, rfl⟩ := Tx.failIf_ok.1 h
    obtain ⟨hmem, hid⟩ := Table.lookup_mem hfound
    exact .inl ⟨rfl, row, hmem, by simpa using hid⟩
  | none =>
    obtain ⟨t, ht, _, rfl⟩ := writeBack_ok.1 (Tx.exec_ok.1 h)
    exact .inr ⟨t, ht, rfl⟩

theorem enqueueWorkItems_moves (h : enqueueWorkItems fk queued db = .ok (u, db')) :
    Moves (Queues items constraints queued) db db' := by
  refine Tx.forM_rel Reaches.refl (fun _ _ _ => Reaches.trans) (fun item hitem s s' hs => ?_) h
  rcases enqueueWorkItem_ok hs with ⟨rfl, _⟩ | ⟨t, ht, rfl⟩
  · exact .refl _
  · exact .single (.enqueue ht) ⟨item, hitem, rfl⟩

theorem insertWorkItemsOp_moves (h : insertWorkItemsOp fk items db = .ok (u, db')) :
    Moves (Queues items [] []) db db' := by
  obtain ⟨_, h⟩ := validated_bind.1 h
  exact insertWorkItems_moves h

theorem queueWorkItems_moves {request : QueueWorkItemsRequest}
    (h : queueWorkItems fk request db = .ok (u, db')) :
    Moves (Queues request.workItems request.resourceConstraints request.queuedWork) db db' := by
  obtain ⟨_, h⟩ := validated_bind.1 h
  obtain ⟨_, db₁, hitems, h⟩ := Tx.bind_ok.1 h
  obtain ⟨_, db₂, hconstraints, h⟩ := Tx.bind_ok.1 h
  exact (insertWorkItems_moves hitems).trans
    ((insertWorkItemResourceConstraints_moves hconstraints).trans (enqueueWorkItems_moves h))

theorem enqueueWorkItemsOp_moves (h : enqueueWorkItemsOp fk queued db = .ok (u, db')) :
    Moves (Queues [] [] queued) db db' := by
  obtain ⟨_, h⟩ := validated_bind.1 h
  exact enqueueWorkItems_moves h

theorem completeReadyStage_moves {request : CompleteStageRequest}
    (h : completeReadyStage fk request db = .ok (u, db')) :
    Moves (Queues request.readyWorkItems request.readyResourceConstraints request.readyQueuedWork)
      db db' := by
  obtain ⟨t, _, _, h⟩ := writeBack_bind.1 h
  obtain ⟨_, db₂, hitems, h⟩ := Tx.bind_ok.1 h
  obtain ⟨_, db₃, hconstraints, h⟩ := Tx.bind_ok.1 h
  have hcatalog : OnlyCatalog db { db with workflowStages := t } := rfl
  exact (hcatalog.moves trivial).trans ((insertWorkItems_moves hitems).trans
    ((insertWorkItemResourceConstraints_moves hconstraints).trans (enqueueWorkItems_moves h)))

/-- Only a stage that is ready, running or in an unknown state is written, when its work is complete. -/
theorem completeStageIfReady_ok {request : CompleteStageRequest} {result : CompleteStageResult}
    (h : completeStageIfReady fk request db = .ok (result, db')) :
    db' = db ∨ (request.validate = .ok () ∧
      (∃ stage, db.workflowStages.lookup request.isStage = some stage ∧ stage.state ≠ .completed) ∧
      stageWorkComplete db request.runId request.stageIndex = true ∧ completeReadyStage fk request db = .ok ((), db')) := by
  obtain ⟨hvalid, h⟩ := validated_bind.1 h
  obtain ⟨found, hfound, h⟩ := Tx.read_bind.1 h
  cases found with
  | none => exact .inl (Tx.pure_ok.1 h).2.symm
  | some stage =>
    cases hstate : stage.state with
    | completed =>
      simp only [hstate] at h
      obtain ⟨_, h⟩ := Tx.failIf_bind.1 h
      exact .inl (Tx.pure_ok.1 h).2.symm
    | ready | running | other text =>
      simp only [hstate] at h
      obtain ⟨ready, hready, h⟩ := Tx.read_bind.1 h
      split at h
      next hcomplete =>
        obtain ⟨_, hwrites, _⟩ := Tx.bind_pure_ok.1 h
        exact .inr ⟨hvalid, ⟨stage, hfound, by simp [hstate]⟩, hready.trans hcomplete, hwrites⟩
      next => exact .inl (Tx.pure_ok.1 h).2.symm
    | failed | skipped | blocked =>
      simp only [hstate] at h
      exact absurd h Tx.throw_ok

theorem completeStageIfReady_moves {request : CompleteStageRequest} {result : CompleteStageResult}
    (h : completeStageIfReady fk request db = .ok (result, db')) :
    Moves (Queues request.readyWorkItems request.readyResourceConstraints request.readyQueuedWork)
      db db' := by
  rcases completeStageIfReady_ok h with rfl | ⟨_, _, _, hcomplete⟩
  · exact .refl _
  · exact completeReadyStage_moves hcomplete

end Queue

/-! ### Claims -/

section Claim

variable {request : ClaimWorkRequest}

theorem no_running_of_count {sessionId : String}
    (h : (db.runningWork.count (·.workerSessionId == some sessionId) != 0) = false) :
    ∀ r ∈ db.runningWork, r.workerSessionId ≠ some sessionId := by
  intro r hr hsession
  have hzero : db.runningWork.count (·.workerSessionId == some sessionId) = 0 := by simpa using h
  have := Table.count_eq_zero.1 hzero r hr
  simp [hsession] at this

theorem validateWorkerSessionCanClaim_ok
    (h : validateWorkerSessionCanClaim request db = .ok (u, db')) : db = db' ∧ CanClaim db request := by
  obtain ⟨found, hfound, h⟩ := Tx.read_bind.1 h
  cases found with
  | none => exact absurd h Tx.throw_ok
  | some session =>
    obtain ⟨hactive, h⟩ := Tx.failIf_bind.1 h
    obtain ⟨hlive, h⟩ := Tx.failIf_bind.1 h
    obtain ⟨count, rfl, h⟩ := Tx.read_bind.1 h
    obtain ⟨hcount, rfl⟩ := Tx.failIf_ok.1 h
    exact ⟨rfl, session, hfound, by simpa using hactive, hlive, no_running_of_count hcount⟩

theorem validateClaimExecutor_ok (h : validateClaimExecutor request db = .ok (u, db')) :
    db = db' ∧ (request.executorType = .worker → CanClaim db request) := by
  unfold validateClaimExecutor at h
  by_cases hworker : request.executorType = .worker
  · rw [if_pos hworker] at h
    obtain ⟨rfl, hcan⟩ := validateWorkerSessionCanClaim_ok h
    exact ⟨rfl, fun _ => hcan⟩
  · rw [if_neg hworker] at h
    obtain ⟨_, rfl⟩ := Tx.pure_ok.1 h
    exact ⟨rfl, fun hw => absurd hw hworker⟩

/-- The three statements of a claim. -/
theorem claimQueuedWork_ok {queued : QueuedWorkRecord} {claimed : ClaimedWorkRecord}
    (h : claimQueuedWork fk request queued db = .ok (claimed, db')) :
    claimed = request.claimed queued ∧
      ∃ attempts running, db.attempts.insert (request.attempt queued) = .ok attempts ∧
        db.runningWork.insert (request.running queued) = .ok running ∧
        db' = { db with
          attempts := attempts, runningWork := running,
          queuedWork := db.queuedWork.delete (·.workItemId == queued.id) } := by
  obtain ⟨attempts, hattempts, _, h⟩ := writeBack_bind.1 h
  obtain ⟨running, hrunning, _, h⟩ := writeBack_bind.1 h
  obtain ⟨deleted, _, h⟩ := Tx.read_bind.1 h
  obtain ⟨_, db₄, hdelete, h⟩ := Tx.bind_ok.1 h
  cases Tx.exec_ok.1 hdelete
  obtain ⟨_, h⟩ := Tx.failIf_bind.1 h
  obtain ⟨rfl, rfl⟩ := Tx.pure_ok.1 h
  exact ⟨rfl, attempts, running, hattempts, hrunning, rfl⟩

/-- The claim loop skips the items that are not allowed and claims the first that is. -/
theorem claimFirstAllowed_ok {items : List QueuedWorkRecord} {result : Option ClaimedWorkRecord}
    (h : claimFirstAllowed fk request items db = .ok (result, db')) :
    (result = none ∧ db' = db ∧ ∀ q ∈ items, queuedResourceConstraintsAllow db q.id = .ok false) ∨
      ∃ before queued after claimed, items = before ++ queued :: after ∧
        (∀ q ∈ before, queuedResourceConstraintsAllow db q.id = .ok false) ∧
        queuedResourceConstraintsAllow db queued.id = .ok true ∧ result = some claimed ∧
        claimQueuedWork fk request queued db = .ok (claimed, db') := by
  induction items with
  | nil =>
    obtain ⟨rfl, rfl⟩ := Tx.pure_ok.1 h
    exact .inl ⟨rfl, rfl, by simp⟩
  | cons queued rest ih =>
    unfold claimFirstAllowed at h
    obtain ⟨_, rfl, h⟩ := Tx.read_bind.1 h
    obtain ⟨allowed, hallow, h⟩ := Tx.ofExcept_bind.1 h
    cases allowed with
    | true =>
      obtain ⟨claimed, hclaim, rfl⟩ := Tx.bind_pure_ok.1 h
      exact .inr ⟨[], queued, rest, claimed, rfl, by simp, hallow, rfl, hclaim⟩
    | false =>
      rcases ih h with ⟨rfl, rfl, hall⟩ | ⟨before, q, after, claimed, rfl, hbefore, hq, rfl, hclaim⟩
      · exact .inl ⟨rfl, rfl, List.forall_mem_cons.2 ⟨hallow, hall⟩⟩
      · exact .inr ⟨queued :: before, q, after, claimed, rfl,
          List.forall_mem_cons.2 ⟨hallow, hbefore⟩, hq, rfl, hclaim⟩

/-- A claim is one move or none. -/
theorem claimNextWork_move {result : Option ClaimedWorkRecord}
    (h : claimNextWork fk request db = .ok (result, db')) :
    db = db' ∨ ∃ queued, Move db (.claim request queued) db' := by
  obtain ⟨hvalid, h⟩ := validated_bind.1 h
  obtain ⟨_, db₁, hsession, h⟩ := Tx.bind_ok.1 h
  obtain ⟨rfl, hcan⟩ := validateClaimExecutor_ok hsession
  obtain ⟨items, rfl, h⟩ := Tx.read_bind.1 h
  rcases claimFirstAllowed_ok h with ⟨_, rfl, _⟩ | ⟨before, q, after, claimed, hitems, _, hq, _, hclaim⟩
  · exact .inl rfl
  · obtain ⟨_, attempts, running, hattempts, hrunning, rfl⟩ := claimQueuedWork_ok hclaim
    have hmem : q ∈ listQueuedWorkForClaim db := by simp [hitems]
    exact .inr ⟨q, .claim hvalid hcan hmem hq hattempts hrunning⟩

end Claim

/-! ### Reports -/

variable {running : RunningRow}

/-- The owner check reads, and lets through what `OwnerAllowed` says. -/
theorem validateRunningAssignmentOwner_ok {workerId sessionId cutoff : String}
    (h : validateRunningAssignmentOwner running workerId sessionId cutoff db = .ok (u, db')) :
    db = db' ∧ OwnerAllowed db running workerId sessionId cutoff := by
  unfold validateRunningAssignmentOwner at h
  by_cases hanonymous : workerId = "" ∧ sessionId = ""
  · rw [if_pos hanonymous] at h
    obtain ⟨_, rfl⟩ := Tx.pure_ok.1 h
    exact ⟨rfl, .inl hanonymous⟩
  rw [if_neg hanonymous] at h
  by_cases hhalf : workerId = "" ∨ sessionId = ""
  · rw [if_pos hhalf] at h
    exact absurd h Tx.throw_ok
  rw [if_neg hhalf] at h
  by_cases hother : coalesce running.workerId ≠ workerId ∨ coalesce running.workerSessionId ≠ sessionId
  · rw [if_pos hother] at h
    exact absurd h Tx.throw_ok
  rw [if_neg hother] at h
  simp only [not_or, not_not] at hhalf hother
  obtain ⟨found, hfound, h⟩ := Tx.read_bind.1 h
  cases found with
  | none => exact absurd h Tx.throw_ok
  | some session =>
    obtain ⟨hactive, h⟩ := Tx.failIf_bind.1 h
    obtain ⟨hlive, rfl⟩ := Tx.failIf_ok.1 h
    exact ⟨rfl, .inr ⟨hhalf.1, hhalf.2, hother.1, hother.2, session, hfound, by simpa using hactive, hlive⟩⟩

theorem deleteRunningWork_ok {attemptId : String}
    (h : deleteRunningWork attemptId db = .ok (u, db')) :
    db' = { db with runningWork := db.runningWork.delete (·.attemptId == attemptId) } := by
  obtain ⟨deleted, _, h⟩ := Tx.read_bind.1 h
  obtain ⟨_, db₁, hexec, h⟩ := Tx.bind_ok.1 h
  cases Tx.exec_ok.1 hexec
  obtain ⟨_, rfl⟩ := Tx.failIf_ok.1 h
  rfl

theorem reportWithoutOutcome_ok {α : Type} {attemptId workerId : String} {result : Option α}
    (h : reportWithoutOutcome attemptId workerId db = .ok (result, db')) : result = none ∧ db' = db := by
  obtain ⟨abandoned, _, h⟩ := Tx.read_bind.1 h
  obtain ⟨_, h⟩ := Tx.failIf_bind.1 h
  obtain ⟨rfl, rfl⟩ := Tx.pure_ok.1 h
  exact ⟨rfl, rfl⟩

/-- A report on an attempt that is not running changes nothing; what it finds is recorded. -/
theorem completeNotRunning_ok {request : CompleteAttemptRequest} {result : Option CompletedWorkRecord}
    (h : completeNotRunning request db = .ok (result, db')) :
    db' = db ∧ ∀ r, result = some r → r ∈ db.completedWork := by
  obtain ⟨found, hfound, h⟩ := Tx.read_bind.1 h
  cases found with
  | some existing =>
    obtain ⟨_, h⟩ := Tx.failIf_bind.1 h
    obtain ⟨rfl, rfl⟩ := Tx.pure_ok.1 h
    refine ⟨rfl, fun r hr => ?_⟩
    cases hr
    exact (Table.lookup_mem hfound).1
  | none =>
    obtain ⟨failed, _, h⟩ := Tx.read_bind.1 h
    obtain ⟨_, h⟩ := Tx.failIf_bind.1 h
    obtain ⟨rfl, rfl⟩ := reportWithoutOutcome_ok h
    exact ⟨rfl, by simp⟩

theorem failNotRunning_ok {request : FailAttemptRequest} {result : Option FailedWorkRecord}
    (h : failNotRunning request db = .ok (result, db')) : db' = db ∧ ∀ r, result = some r → r ∈ db.failedWork := by
  obtain ⟨found, hfound, h⟩ := Tx.read_bind.1 h
  cases found with
  | some existing =>
    obtain ⟨_, h⟩ := Tx.failIf_bind.1 h
    obtain ⟨rfl, rfl⟩ := Tx.pure_ok.1 h
    refine ⟨rfl, fun r hr => ?_⟩
    cases hr
    exact (Table.lookup_mem hfound).1
  | none =>
    obtain ⟨completed, _, h⟩ := Tx.read_bind.1 h
    obtain ⟨_, h⟩ := Tx.failIf_bind.1 h
    obtain ⟨rfl, rfl⟩ := reportWithoutOutcome_ok h
    exact ⟨rfl, by simp⟩

/-- A completion report is one move, the completion of the attempt it names, or none. -/
theorem completeAttempt_move {request : CompleteAttemptRequest} {result : Option CompletedWorkRecord}
    (h : completeAttempt fk request db = .ok (result, db')) :
    (db = db' ∧ ∀ r, result = some r → r ∈ db.completedWork) ∨
      ∃ running, Move db (.complete request running) db' ∧ result = some (request.completed running) := by
  obtain ⟨_, h⟩ := validated_bind.1 h
  obtain ⟨found, hfound, h⟩ := Tx.read_bind.1 h
  cases found with
  | none =>
    obtain ⟨rfl, hresult⟩ := completeNotRunning_ok h
    exact .inl ⟨rfl, hresult⟩
  | some running =>
    obtain ⟨hmem, hid⟩ := Table.lookup_mem hfound
    have hattempt : running.attemptId = request.attemptId := by simpa using hid
    obtain ⟨_, hbody, rfl⟩ := Tx.bind_pure_ok.1 h
    obtain ⟨_, db₂, howner, hwrites⟩ := Tx.bind_ok.1 hbody
    obtain ⟨rfl, howned⟩ := validateRunningAssignmentOwner_ok howner
    obtain ⟨_, db₃, hexec, hrest⟩ := Tx.bind_ok.1 hwrites
    obtain ⟨_, hdelete, rfl⟩ := Tx.bind_pure_ok.1 hrest
    have hinsert := Tx.exec_ok.1 hexec
    cases hcompleted : db.completedWork.insert (request.completed running) with
    | error v => simp [hcompleted] at hinsert
    | ok completed =>
      simp only [hcompleted] at hinsert
      obtain ⟨t, ht, _, rfl⟩ := writeBack_ok.1 hinsert
      cases ht
      rw [deleteRunningWork_ok hdelete, ← hattempt]
      exact .inr ⟨running, .complete hmem hattempt howned hcompleted, rfl⟩

/-- A failure report is one move, the failure of the attempt it names, or none. -/
theorem failAttempt_move {request : FailAttemptRequest} {result : Option FailedWorkRecord}
    (h : failAttempt fk request db = .ok (result, db')) :
    (db = db' ∧ ∀ r, result = some r → r ∈ db.failedWork) ∨
      ∃ running, Move db (.fail request running) db' ∧ result = some (request.failed running) := by
  obtain ⟨_, h⟩ := validated_bind.1 h
  obtain ⟨found, hfound, h⟩ := Tx.read_bind.1 h
  cases found with
  | none =>
    obtain ⟨rfl, hresult⟩ := failNotRunning_ok h
    exact .inl ⟨rfl, hresult⟩
  | some running =>
    obtain ⟨hmem, hid⟩ := Table.lookup_mem hfound
    have hattempt : running.attemptId = request.attemptId := by simpa using hid
    obtain ⟨_, hbody, rfl⟩ := Tx.bind_pure_ok.1 h
    obtain ⟨_, db₂, howner, hwrites⟩ := Tx.bind_ok.1 hbody
    obtain ⟨rfl, howned⟩ := validateRunningAssignmentOwner_ok howner
    obtain ⟨_, db₃, hexec, hrest⟩ := Tx.bind_ok.1 hwrites
    obtain ⟨_, hdelete, rfl⟩ := Tx.bind_pure_ok.1 hrest
    obtain ⟨failed, hfailed, _, rfl⟩ := writeBack_ok.1 (Tx.exec_ok.1 hexec)
    rw [deleteRunningWork_ok hdelete, ← hattempt]
    exact .inr ⟨running, .fail hmem hattempt howned hfailed, rfl⟩

/-! ### Sessions -/

theorem registerWorkerSession_moves {request : RegisterWorkerSessionRequest} {result : WorkerSessionRecord}
    (h : registerWorkerSession fk request db = .ok (result, db')) :
    Moves (fun e => e = .registerWorker request.worker ∨ e = .registerSession request.session) db db' := by
  obtain ⟨_, h⟩ := validated_bind.1 h
  obtain ⟨found, _, h⟩ := Tx.read_bind.1 h
  cases found with
  | some existing =>
    obtain ⟨_, h⟩ := Tx.failIf_bind.1 h
    obtain ⟨_, rfl⟩ := Tx.pure_ok.1 h
    exact .refl _
  | none =>
    obtain ⟨workers, hworkers, _, h⟩ := writeBack_bind.1 h
    obtain ⟨sessions, hsessions, _, h⟩ := writeBack_bind.1 h
    obtain ⟨_, rfl⟩ := Tx.pure_ok.1 h
    have hworker : ∃ w ∈ workers, w.id = request.workerId := by
      rcases Table.insertOrIgnore_ok hworkers with hnew | ⟨rfl, w, hw, hclash⟩
      · exact ⟨request.worker, (Table.mem_insert hnew).2 (.inr rfl), rfl⟩
      · exact ⟨w, hw, Schema.keyed_clash.1 hclash⟩
    exact (Reaches.single (.registerWorker hworkers) (.inl rfl)).trans
      (.single (.registerSession rfl hworker hsessions) (.inr rfl))

theorem updateWorkerSessions_ok {cond : WorkerSessionRecord → Bool}
    {change : WorkerSessionRecord → WorkerSessionRecord} {context : String} {changed : Bool}
    (h : updateWorkerSessions cond change context db = .ok (changed, db')) :
    db.workerSessions.any cond = changed ∧
      ∃ t, db.workerSessions.update cond change = .ok t ∧ { db with workerSessions := t } = db' := by
  obtain ⟨found, hfound, h⟩ := Tx.read_bind.1 h
  obtain ⟨t, ht, _, h⟩ := writeBack_bind.1 h
  obtain ⟨rfl, rfl⟩ := Tx.pure_ok.1 h
  exact ⟨hfound, t, ht, rfl⟩

variable {result : Bool}

theorem heartbeatWorkerSession_moves {request : HeartbeatWorkerSessionRequest}
    (h : heartbeatWorkerSession request db = .ok (result, db')) :
    Moves (fun e => e = .heartbeat request) db db' := by
  obtain ⟨_, h⟩ := validated_bind.1 h
  obtain ⟨_, t, ht, rfl⟩ := updateWorkerSessions_ok h
  exact .single (.heartbeat ht) rfl

/-- The end that an `EndWorkerSession` asks for. -/
def EndWorkerSessionRequest.ending (request : EndWorkerSessionRequest) : SessionEnd :=
  ⟨request.workerId, request.sessionId, request.status, request.endedAt, request.reason⟩

theorem endWorkerSession_moves {request : EndWorkerSessionRequest}
    (h : endWorkerSession request db = .ok (result, db')) :
    Moves (fun e => e = .endIdle request.ending) db db' := by
  obtain ⟨_, h⟩ := validated_bind.1 h
  obtain ⟨found, _, h⟩ := Tx.read_bind.1 h
  cases found with
  | none =>
    obtain ⟨_, rfl⟩ := Tx.pure_ok.1 h
    exact .refl _
  | some session =>
    by_cases hactive : session.status ≠ .active
    · simp only [if_pos hactive] at h
      obtain ⟨_, rfl⟩ := Tx.pure_ok.1 h
      exact .refl _
    · simp only [if_neg hactive] at h
      obtain ⟨count, rfl, h⟩ := Tx.read_bind.1 h
      obtain ⟨hcount, h⟩ := Tx.failIf_bind.1 h
      obtain ⟨hchanged, t, ht, rfl⟩ := updateWorkerSessions_ok h
      cases result with
      | true =>
        have hend : EndsSession request.ending db.workerSessions t :=
          ⟨_, fun _ hs => hs, Table.any_eq_true.1 hchanged, ht⟩
        exact .single (.endIdle hend (no_running_of_count hcount)) rfl
      | false =>
        rw [Table.update_eq_self (Table.any_eq_false.1 hchanged) ht]
        exact .refl _

/-! ### Recovery -/

/-- A session has no running row or one. -/
theorem listRunningWorkForSession_cases (db : Store) (sessionId : String) :
    (listRunningWorkForSession db sessionId = [] ∧
        ∀ r ∈ db.runningWork, r.workerSessionId ≠ some sessionId) ∨
      ∃ r ∈ db.runningWork, r.workerSessionId = some sessionId ∧
        listRunningWorkForSession db sessionId = [r] := by
  have hkey : ∀ a b : RunningRow, (a.workerSessionId == some sessionId) = true →
      (b.workerSessionId == some sessionId) = true → Schema.runningWork.clash a b = true := by
    intro a b ha hb
    exact Schema.unique_clash.2 (.inr ⟨sessionId, by simpa using ha, by simpa using hb⟩)
  unfold listRunningWorkForSession
  rcases Table.filter_of_key (t := db.runningWork) hkey with ⟨hnil, hno⟩ | ⟨r, hr, hp, hone⟩
  · refine .inl ⟨by rw [hnil]; rfl, fun r hr hs => ?_⟩
    simpa [hs] using hno r hr
  · exact .inr ⟨r, hr, by simpa using hp, by rw [hone]; rfl⟩

theorem abandonRunningWork_ok {abandonedAt reason : String}
    (h : abandonRunningWork fk running abandonedAt reason db = .ok (u, db')) :
    ∃ abandoned, db.abandonedWork.insert (running.abandoned abandonedAt reason) = .ok abandoned ∧
      { db with
        abandonedWork := abandoned,
        runningWork := db.runningWork.delete (·.attemptId == running.attemptId) } = db' := by
  obtain ⟨abandoned, habandoned, _, h⟩ := writeBack_bind.1 h
  exact ⟨abandoned, habandoned, (deleteRunningWork_ok h).symm⟩

theorem requeueAbandonedWork_ok {workItemId queuedAt : String}
    (h : requeueAbandonedWork fk workItemId queuedAt db = .ok (result, db')) :
    ∃ queued, db.queuedWork.insertOrIgnore ⟨workItemId, queuedAt⟩ = .ok queued ∧
      { db with queuedWork := queued } = db' := by
  obtain ⟨inserted, _, h⟩ := Tx.read_bind.1 h
  obtain ⟨queued, hqueued, _, h⟩ := writeBack_bind.1 h
  obtain ⟨_, rfl⟩ := Tx.pure_ok.1 h
  exact ⟨queued, hqueued, rfl⟩

/-- The retry limit decides between the queue and a failure. -/
theorem requeueExpiredSessionWork_ok {queuedAt reason : String}
    (h : requeueExpiredSessionWork fk running queuedAt reason db = .ok (result, db')) :
    (abandonments db.abandonedWork running.workItemId reason ≤ expiredSessionRequeueLimit ∧
      ∃ queued, db.queuedWork.insertOrIgnore ⟨running.workItemId, queuedAt⟩ = .ok queued ∧
        { db with queuedWork := queued } = db') ∨
    (expiredSessionRequeueLimit < abandonments db.abandonedWork running.workItemId reason ∧
      ∃ failed, db.failedWork.insert (running.exhausted queuedAt reason) = .ok failed ∧
        { db with failedWork := failed } = db') := by
  obtain ⟨count, rfl, h⟩ := Tx.read_bind.1 h
  split at h
  · rename_i hle
    exact .inl ⟨hle, requeueAbandonedWork_ok h⟩
  · rename_i hgt
    obtain ⟨failed, hfailed, _, h⟩ := writeBack_bind.1 h
    obtain ⟨_, rfl⟩ := Tx.pure_ok.1 h
    exact .inr ⟨not_le.1 hgt, failed, hfailed, rfl⟩

/-- The end that a stop request asks for. -/
def StopWorkerSessionAndRecoverWorkRequest.ending (request : StopWorkerSessionAndRecoverWorkRequest) :
    SessionEnd :=
  ⟨request.workerId, request.sessionId, .stopped, request.stoppedAt, request.reason⟩

/-- The events of a stop. -/
def Stops (request : StopWorkerSessionAndRecoverWorkRequest) (e : Event) : Prop :=
  e = .endIdle request.ending ∨ ∃ running, e = .stop request.ending running

/-- A session's stop, with the loop over its running work, is one move. -/
theorem recoverStoppedWork_move {e : SessionEnd} {sessions : Table Schema.workerSessions} {counts : ℕ × ℕ}
    (hend : EndsSession e db.workerSessions sessions)
    (h : recoverStoppedWork fk e.endedAt (listRunningWorkForSession db e.sessionId)
      { db with workerSessions := sessions } = .ok (counts, db')) :
    Moves (fun x => x = .endIdle e ∨ ∃ running, x = .stop e running) db db' := by
  rcases listRunningWorkForSession_cases db e.sessionId with ⟨hnil, hidle⟩ | ⟨r, hr, hsession, hone⟩
  · rw [hnil] at h
    obtain ⟨_, rfl⟩ := Tx.pure_ok.1 h
    exact .single (.endIdle hend hidle) (.inl rfl)
  · rw [hone] at h
    obtain ⟨_, db₁, habandon, h⟩ := Tx.bind_ok.1 h
    obtain ⟨abandoned, habandoned, rfl⟩ := abandonRunningWork_ok habandon
    obtain ⟨_, db₁, hrequeue, h⟩ := Tx.bind_ok.1 h
    obtain ⟨queued, hqueued, rfl⟩ := requeueAbandonedWork_ok hrequeue
    obtain ⟨_, db₁, hnil, h⟩ := Tx.bind_ok.1 h
    obtain ⟨_, rfl⟩ := Tx.pure_ok.1 hnil
    obtain ⟨_, rfl⟩ := Tx.pure_ok.1 h
    exact .single (.stop hend hr hsession habandoned hqueued) (.inr ⟨r, rfl⟩)

theorem stopWorkerSessionAndRecoverWork_moves {request : StopWorkerSessionAndRecoverWorkRequest}
    {result : StopWorkerSessionAndRecoverWorkResult}
    (h : stopWorkerSessionAndRecoverWork fk request db = .ok (result, db')) :
    Moves (Stops request) db db' := by
  obtain ⟨_, h⟩ := validated_bind.1 h
  obtain ⟨found, _, h⟩ := Tx.read_bind.1 h
  cases found with
  | none =>
    obtain ⟨_, rfl⟩ := Tx.pure_ok.1 h
    exact .refl _
  | some session =>
    by_cases hactive : session.status ≠ .active
    · simp only [if_pos hactive] at h
      obtain ⟨_, rfl⟩ := Tx.pure_ok.1 h
      exact .refl _
    · simp only [if_neg hactive] at h
      obtain ⟨changed, db₁, hmark, h⟩ := Tx.bind_ok.1 h
      obtain ⟨hchanged, sessions, hsessions, rfl⟩ := updateWorkerSessions_ok hmark
      cases changed with
      | false =>
        obtain ⟨_, rfl⟩ := Tx.pure_ok.1 h
        rw [Table.update_eq_self (Table.any_eq_false.1 hchanged) hsessions]
        exact .refl _
      | true =>
        obtain ⟨assignments, rfl, h⟩ := Tx.read_bind.1 h
        obtain ⟨counts, hloop, _⟩ := Tx.bind_pure_ok.1 h
        have hend : EndsSession request.ending db.workerSessions sessions :=
          ⟨_, fun _ hs => hs, Table.any_eq_true.1 hchanged, hsessions⟩
        exact recoverStoppedWork_move hend hloop

/-- The events of one session's expiry. -/
def ExpiresSession (e : SessionEnd) (x : Event) : Prop :=
  x = .endIdle e ∨ ∃ running, x = .expireRequeue e running ∨ x = .expireFail e running

/-- The events of a recovery: sessions that died at the recovery's time and for its reason. -/
def Expires (request : RecoverExpiredWorkerSessionsRequest) (x : Event) : Prop :=
  ∃ workerId sessionId,
    ExpiresSession ⟨workerId, sessionId, .dead, request.recoveredAt, request.reason⟩ x

variable {request : RecoverExpiredWorkerSessionsRequest}

/-- A session's expiry, with the loop over its running work, is one move. -/
theorem recoverExpiredWork_move {e : SessionEnd}
    {sessions : Table Schema.workerSessions} {counts : ℕ × ℕ} (hat : e.endedAt = request.recoveredAt)
    (hreason : e.reason = request.reason) (hend : EndsSession e db.workerSessions sessions)
    (h : recoverExpiredWork fk request (listRunningWorkForSession db e.sessionId)
      { db with workerSessions := sessions } = .ok (counts, db')) :
    Moves (ExpiresSession e) db db' := by
  rcases listRunningWorkForSession_cases db e.sessionId with ⟨hnil, hidle⟩ | ⟨r, hr, hsession, hone⟩
  · rw [hnil] at h
    obtain ⟨_, rfl⟩ := Tx.pure_ok.1 h
    exact .single (.endIdle hend hidle) (.inl rfl)
  · rw [hone] at h
    obtain ⟨_, db₁, habandon, h⟩ := Tx.bind_ok.1 h
    obtain ⟨abandoned, habandoned, rfl⟩ := abandonRunningWork_ok habandon
    obtain ⟨_, db₁, hrequeue, h⟩ := Tx.bind_ok.1 h
    obtain ⟨_, db₂, hnil, h⟩ := Tx.bind_ok.1 h
    obtain ⟨_, rfl⟩ := Tx.pure_ok.1 hnil
    obtain ⟨_, rfl⟩ := Tx.pure_ok.1 h
    rw [← hat, ← hreason] at habandoned hrequeue
    rcases requeueExpiredSessionWork_ok hrequeue with
      ⟨hcount, queued, hqueued, rfl⟩ | ⟨hcount, failed, hfailed, rfl⟩
    · exact .single (.expireRequeue hend hr hsession habandoned hcount hqueued) (.inr ⟨r, .inl rfl⟩)
    · exact .single (.expireFail hend hr hsession habandoned hcount hfailed) (.inr ⟨r, .inr rfl⟩)

theorem recoverSessions_moves {expired : List WorkerSessionRecord} {result : RecoverExpiredWorkerSessionsResult}
    (h : recoverSessions fk request expired db = .ok (result, db')) : Moves (Expires request) db db' := by
  induction expired generalizing db result with
  | nil =>
    obtain ⟨_, rfl⟩ := Tx.pure_ok.1 h
    exact .refl _
  | cons session rest ih =>
    obtain ⟨changed, db₁, hmark, h⟩ := Tx.bind_ok.1 h
    obtain ⟨hchanged, sessions, hsessions, rfl⟩ := updateWorkerSessions_ok hmark
    cases changed with
    | false =>
      rw [Table.update_eq_self (Table.any_eq_false.1 hchanged) hsessions] at h
      exact ih h
    | true =>
      obtain ⟨assignments, rfl, h⟩ := Tx.read_bind.1 h
      obtain ⟨counts, db₁, hloop, h⟩ := Tx.bind_ok.1 h
      obtain ⟨result, hrest, _⟩ := Tx.bind_pure_ok.1 h
      have hend : EndsSession ⟨session.workerId, session.id, .dead, request.recoveredAt, request.reason⟩
          db.workerSessions sessions := by
        refine ⟨_, fun s hs => ?_, Table.any_eq_true.1 hchanged, hsessions⟩
        simp only [isExpired, Bool.and_eq_true, beq_iff_eq] at hs
        simp [isActiveSession, hs]
      refine Reaches.trans ?_ (ih hrest)
      exact (recoverExpiredWork_move rfl rfl hend hloop).mono fun x hx => ⟨_, _, hx⟩

theorem recoverExpiredWorkerSessions_moves {result : RecoverExpiredWorkerSessionsResult}
    (h : recoverExpiredWorkerSessions fk request db = .ok (result, db')) :
    Moves (Expires request) db db' := by
  obtain ⟨_, h⟩ := validated_bind.1 h
  obtain ⟨sessions, _, h⟩ := Tx.read_bind.1 h
  exact recoverSessions_moves h

end GoEtl.Persistence
