import GoEtl.Persistence.Effects

/-!
# Runs of the store

The store's write operations as one type, `Op`, and runs of them. A `Call` is an operation together
with whether its connection enforces foreign keys; it is one transaction, and an error rolls it back,
so that the database after a call is a function of the database before (`Call.step`). A run is a list
of calls, in any order and with any arguments, and `after` is the database it leads to from the empty
one.

**`Call.moves`** is the link to the elementary moves: the database after a call is reached from the
one before by moves of the kinds the operation can cause. A run lemma for the store is therefore a
step lemma per kind of move, lifted by `Reaches.invariant` and `run_invariant`.
-/

namespace GoEtl.Persistence

open Library

/-- The write operations of the store. -/
inductive Op where
  /-- `UpsertProject`. -/
  | upsertProject (project : ProjectRecord)
  /-- `DeleteProjectIfUnused`. -/
  | deleteProjectIfUnused (projectId : String)
  /-- `UpsertWorkflow`. -/
  | upsertWorkflow (workflow : WorkflowRecord)
  /-- `DeleteWorkflowIfUnused`. -/
  | deleteWorkflowIfUnused (workflowId : String)
  /-- `CreateWorkflowRun`. -/
  | createWorkflowRun (run : WorkflowRunRecord)
  /-- `UpdateWorkflowRunSubmissionContext`. -/
  | updateWorkflowRunSubmissionContext (runId submissionContextJson : String)
  /-- `InsertStagePlan`. -/
  | insertStagePlan (runId : String) (stages : List WorkflowStageRecord)
  /-- `InsertWorkflowDependencySteps`. -/
  | insertWorkflowDependencySteps (steps : List WorkflowDependencyStepRecord)
  /-- `InsertWorkflowDependencyWorkItemMembership`. -/
  | insertWorkflowDependencyWorkItemMembership (items : List WorkflowDependencyWorkItemRecord)
  /-- `UpsertWorkflowStepOutputFact`. -/
  | upsertWorkflowStepOutputFact (fact : WorkflowStepOutputFactRecord)
  /-- `InsertWorkItems`. -/
  | insertWorkItems (items : List WorkItemRecord)
  /-- `QueueWorkItems`. -/
  | queueWorkItems (request : QueueWorkItemsRequest)
  /-- `EnqueueWorkItems`. -/
  | enqueueWorkItems (items : List QueuedWorkRecord)
  /-- `CompleteStageIfReady`. -/
  | completeStageIfReady (request : CompleteStageRequest)
  /-- `ClaimNextWork`. -/
  | claimNextWork (request : ClaimWorkRequest)
  /-- `CompleteAttempt`. -/
  | completeAttempt (request : CompleteAttemptRequest)
  /-- `FailAttempt`. -/
  | failAttempt (request : FailAttemptRequest)
  /-- `RegisterWorkerSession`. -/
  | registerWorkerSession (request : RegisterWorkerSessionRequest)
  /-- `HeartbeatWorkerSession`. -/
  | heartbeatWorkerSession (request : HeartbeatWorkerSessionRequest)
  /-- `EndWorkerSession`. -/
  | endWorkerSession (request : EndWorkerSessionRequest)
  /-- `StopWorkerSessionAndRecoverWork`. -/
  | stopWorkerSessionAndRecoverWork (request : StopWorkerSessionAndRecoverWorkRequest)
  /-- `RecoverExpiredWorkerSessions`. -/
  | recoverExpiredWorkerSessions (request : RecoverExpiredWorkerSessionsRequest)

/-- Forget a transaction's result. -/
def ignoreResult {α : Type} (m : StoreTx α) : StoreTx Unit := do
  let _ ← m
  pure ()

/-- The transaction of an operation. -/
def Op.tx (fk : Bool) : Op → StoreTx Unit
  | .upsertProject project => Persistence.upsertProject fk project
  | .deleteProjectIfUnused projectId => ignoreResult (Persistence.deleteProjectIfUnused fk projectId)
  | .upsertWorkflow workflow => Persistence.upsertWorkflow fk workflow
  | .deleteWorkflowIfUnused workflowId => ignoreResult (Persistence.deleteWorkflowIfUnused workflowId)
  | .createWorkflowRun run => Persistence.createWorkflowRun fk run
  | .updateWorkflowRunSubmissionContext runId json =>
    Persistence.updateWorkflowRunSubmissionContext runId json
  | .insertStagePlan runId stages => Persistence.insertStagePlan fk runId stages
  | .insertWorkflowDependencySteps steps => Persistence.insertWorkflowDependencySteps fk steps
  | .insertWorkflowDependencyWorkItemMembership items =>
    Persistence.insertWorkflowDependencyWorkItemMembership fk items
  | .upsertWorkflowStepOutputFact fact => Persistence.upsertWorkflowStepOutputFact fk fact
  | .insertWorkItems items => insertWorkItemsOp fk items
  | .queueWorkItems request => Persistence.queueWorkItems fk request
  | .enqueueWorkItems items => enqueueWorkItemsOp fk items
  | .completeStageIfReady request => ignoreResult (Persistence.completeStageIfReady fk request)
  | .claimNextWork request => ignoreResult (Persistence.claimNextWork fk request)
  | .completeAttempt request => ignoreResult (Persistence.completeAttempt fk request)
  | .failAttempt request => ignoreResult (Persistence.failAttempt fk request)
  | .registerWorkerSession request => ignoreResult (Persistence.registerWorkerSession fk request)
  | .heartbeatWorkerSession request => ignoreResult (Persistence.heartbeatWorkerSession request)
  | .endWorkerSession request => ignoreResult (Persistence.endWorkerSession request)
  | .stopWorkerSessionAndRecoverWork request =>
    ignoreResult (Persistence.stopWorkerSessionAndRecoverWork fk request)
  | .recoverExpiredWorkerSessions request =>
    ignoreResult (Persistence.recoverExpiredWorkerSessions fk request)

/-- The work items an operation may insert. -/
def Op.items : Op → List WorkItemRecord
  | .insertWorkItems items => items
  | .queueWorkItems request => request.workItems
  | .completeStageIfReady request => request.readyWorkItems
  | _ => []

/-- The work items an operation may put in the queue by name. -/
def Op.enqueues : Op → List QueuedWorkRecord
  | .queueWorkItems request => request.queuedWork
  | .enqueueWorkItems items => items
  | .completeStageIfReady request => request.readyQueuedWork
  | _ => []

/-- The resource constraints an operation may insert. -/
def Op.constraints : Op → List WorkItemResourceConstraintRecord
  | .queueWorkItems request => request.resourceConstraints
  | .completeStageIfReady request => request.readyResourceConstraints
  | _ => []

/-- The events an operation can cause. -/
def Op.causes : Op → Event → Prop
  | .insertWorkItems items => Queues items [] []
  | .queueWorkItems request => Queues request.workItems request.resourceConstraints request.queuedWork
  | .enqueueWorkItems items => Queues [] [] items
  | .completeStageIfReady request =>
    Queues request.readyWorkItems request.readyResourceConstraints request.readyQueuedWork
  | .claimNextWork request => fun e => ∃ queued, e = .claim request queued
  | .completeAttempt request => fun e => ∃ running, e = .complete request running
  | .failAttempt request => fun e => ∃ running, e = .fail request running
  | .registerWorkerSession request => fun e =>
    e = .registerWorker request.worker ∨ e = .registerSession request.session
  | .heartbeatWorkerSession request => fun e => e = .heartbeat request
  | .endWorkerSession request => fun e => e = .endIdle request.ending
  | .stopWorkerSessionAndRecoverWork request => Stops request
  | .recoverExpiredWorkerSessions request => Expires request
  | _ => fun e => e = .catalog

variable {fk : Bool} {db db' : Store}

theorem ignoreResult_ok {α : Type} {m : StoreTx α} {u : Unit} (h : ignoreResult m db = .ok (u, db')) :
    ∃ a, m db = .ok (a, db') := by
  obtain ⟨a, hm, _⟩ := Tx.bind_pure_ok.1 h
  exact ⟨a, hm⟩

variable {op : Op}

/-- A committed operation is a sequence of the moves it can cause. -/
theorem Op.tx_moves {u : Unit} (h : op.tx fk db = .ok (u, db')) : Moves op.causes db db' := by
  cases op with
  | upsertProject project =>
    obtain ⟨t, rfl⟩ := upsertProject_ok h
    exact OnlyCatalog.moves rfl rfl
  | deleteProjectIfUnused projectId =>
    obtain ⟨_, h⟩ := ignoreResult_ok h
    obtain ⟨t, rfl⟩ := deleteProjectIfUnused_ok h
    exact OnlyCatalog.moves rfl rfl
  | upsertWorkflow workflow =>
    obtain ⟨t, rfl⟩ := upsertWorkflow_ok h
    exact OnlyCatalog.moves rfl rfl
  | deleteWorkflowIfUnused workflowId =>
    obtain ⟨_, h⟩ := ignoreResult_ok h
    obtain ⟨t, rfl⟩ := deleteWorkflowIfUnused_ok h
    exact OnlyCatalog.moves rfl rfl
  | createWorkflowRun run =>
    obtain ⟨_, ⟨_, rfl⟩ | ⟨t, _, rfl⟩⟩ := createWorkflowRun_ok h <;> exact OnlyCatalog.moves rfl rfl
  | updateWorkflowRunSubmissionContext runId json =>
    obtain ⟨t, _, rfl⟩ := updateWorkflowRunSubmissionContext_ok h
    exact OnlyCatalog.moves rfl rfl
  | insertStagePlan runId stages =>
    obtain ⟨t, _, rfl⟩ := insertStagePlan_ok h
    exact OnlyCatalog.moves rfl rfl
  | insertWorkflowDependencySteps steps =>
    obtain ⟨rfl, _⟩ | ⟨t, _, rfl⟩ := insertWorkflowDependencySteps_ok h <;> exact OnlyCatalog.moves rfl rfl
  | insertWorkflowDependencyWorkItemMembership items =>
    obtain ⟨t, rfl⟩ := insertWorkflowDependencyWorkItemMembership_rows h
    exact OnlyCatalog.moves rfl rfl
  | upsertWorkflowStepOutputFact fact =>
    obtain ⟨_, t, rfl, _⟩ := upsertWorkflowStepOutputFact_ok h
    exact OnlyCatalog.moves rfl rfl
  | insertWorkItems items => exact insertWorkItemsOp_moves h
  | queueWorkItems request => exact queueWorkItems_moves h
  | enqueueWorkItems items => exact enqueueWorkItemsOp_moves h
  | completeStageIfReady request => exact (ignoreResult_ok h).elim fun _ h => completeStageIfReady_moves h
  | claimNextWork request =>
    obtain ⟨_, h⟩ := ignoreResult_ok h
    rcases claimNextWork_move h with rfl | ⟨queued, hmove⟩
    · exact .refl db
    · exact .single hmove ⟨queued, rfl⟩
  | completeAttempt request =>
    obtain ⟨_, h⟩ := ignoreResult_ok h
    rcases completeAttempt_move h with ⟨rfl, _⟩ | ⟨running, hmove, _⟩
    · exact .refl db
    · exact .single hmove ⟨running, rfl⟩
  | failAttempt request =>
    obtain ⟨_, h⟩ := ignoreResult_ok h
    rcases failAttempt_move h with ⟨rfl, _⟩ | ⟨running, hmove, _⟩
    · exact .refl db
    · exact .single hmove ⟨running, rfl⟩
  | registerWorkerSession request => exact (ignoreResult_ok h).elim fun _ h => registerWorkerSession_moves h
  | heartbeatWorkerSession request =>
    exact (ignoreResult_ok h).elim fun _ h => heartbeatWorkerSession_moves h
  | endWorkerSession request => exact (ignoreResult_ok h).elim fun _ h => endWorkerSession_moves h
  | stopWorkerSessionAndRecoverWork request =>
    exact (ignoreResult_ok h).elim fun _ h => stopWorkerSessionAndRecoverWork_moves h
  | recoverExpiredWorkerSessions request =>
    exact (ignoreResult_ok h).elim fun _ h => recoverExpiredWorkerSessions_moves h

/-! ### Calls and runs -/

/-- An operation, on a connection that enforces foreign keys or on one that does not. -/
structure Call where
  /-- Whether the connection enforces foreign keys. -/
  fk : Bool
  /-- The operation. -/
  op : Op

/-- The database after a call: an error leaves it as it was. -/
def Call.step (db : Store) (call : Call) : Store := (call.op.tx call.fk).commit db

/-- The call returns an error. -/
def Call.fails (db : Store) (call : Call) : Prop := ∃ e, call.op.tx call.fk db = .error e

variable {call : Call}

theorem Call.step_of_fails (h : call.fails db) : call.step db = db := by
  obtain ⟨e, he⟩ := h
  simp [Call.step, Tx.commit, he]

/-- **A call is a sequence of moves** of the kinds its operation can cause. -/
theorem Call.moves (db : Store) (call : Call) : Moves call.op.causes db (call.step db) := by
  rcases Tx.commit_cases (call.op.tx call.fk) db with ⟨_, _, h⟩ | ⟨_, db', hok, h⟩
  · rw [Call.step, h]
    exact .refl db
  · rw [Call.step, h]
    exact Op.tx_moves hok

/-- The database after a run from the empty one. -/
def after (calls : List Call) : Store := run Call.step Store.empty calls

/-- The steps of a run from the empty database. -/
def steps (calls : List Call) : List (Store × Call × Store) := trace Call.step Store.empty calls

/-- The next step of a run. -/
def nextStep (calls : List Call) (call : Call) : Store × Call × Store :=
  (after calls, call, after (calls ++ [call]))

variable {calls : List Call}

theorem after_concat :
    after (calls ++ [call]) = call.step (after calls) := run_append

theorem steps_concat :
    steps (calls ++ [call]) = steps calls ++ [nextStep calls call] := by
  rw [nextStep, after_concat]
  exact trace_concat

theorem nextStep_mem (earlier : List Call) (call : Call) (later : List Call) :
    nextStep earlier call ∈ steps (earlier ++ call :: later) := by
  rw [List.append_cons, steps, trace_append, ← steps, steps_concat]
  simp

theorem steps_subset_append (later : List Call) : steps calls ⊆ steps (calls ++ later) := by
  rw [steps, steps, trace_append]
  exact List.subset_append_left _ _

variable {P : Store → Prop}

/-- What every move keeps, further calls keep. -/
theorem invariant_later (hmove : ∀ db e db', Move db e db' → P db → P db') (h : P (after calls)) (later : List Call)
    : P (after (calls ++ later)) := by
  rw [after, run_append]
  exact run_invariant (C := fun _ _ => True)
    (fun db call _ => (call.moves db).invariant fun s e t _ => hmove s e t) (fun _ _ => trivial) h

/-- What every move keeps, every run keeps. -/
theorem invariant_after (hempty : P Store.empty) (hmove : ∀ db e db', Move db e db' → P db → P db') (calls : List Call)
    : P (after calls) := by
  have hnone : P (after []) := hempty
  exact invariant_later hmove hnone calls

/-! ### Guarded inserts

Three operations insert rows that they name: work items, resource constraints and queue rows. They do
nothing else, so that a condition on the running and the finished work that holds of the rows they
name before the call holds of each of them when it is inserted. -/

/-- The event inserts a work item, a constraint or a queue row that its operation names. -/
def Event.inserts : Event → Bool
  | .insertItem _ => true
  | .insertConstraint _ => true
  | .enqueue _ => true
  | _ => false

/-- Two databases with the same running, completed, failed and abandoned work, and the second with the
constraints of the first. -/
structure SameWork (s t : Store) : Prop where
  running : t.runningWork = s.runningWork
  completed : t.completedWork = s.completedWork
  failed : t.failedWork = s.failedWork
  abandoned : t.abandonedWork = s.abandonedWork
  constraints : ∀ c ∈ s.resourceConstraints, c ∈ t.resourceConstraints

theorem Queues.sameWork {items : List WorkItemRecord}
    {constraints : List WorkItemResourceConstraintRecord} {queued : List QueuedWorkRecord} {e : Event}
    (h : Queues items constraints queued e) (hmove : Move db e db') : SameWork db db' := by
  cases hmove with
  | insertConstraint hinsert => exact ⟨rfl, rfl, rfl, rfl, fun _ hc => (Table.mem_insert hinsert).2 (.inl hc)⟩
  | catalog | insertItem | enqueue => exact ⟨rfl, rfl, rfl, rfl, fun _ => id⟩
  | _ => exact h.elim

/-- An operation inserts nothing by name, or it does not touch the running and the finished work. -/
theorem Op.inserts_or_sameWork (op : Op) :
    (∀ e, op.causes e → e.inserts = false) ∨ ∀ e s t, op.causes e → Move s e t → SameWork s t := by
  cases op with
  | insertWorkItems items => exact .inr fun _ _ _ h hmove => Queues.sameWork h hmove
  | queueWorkItems request => exact .inr fun _ _ _ h hmove => Queues.sameWork h hmove
  | enqueueWorkItems items => exact .inr fun _ _ _ h hmove => Queues.sameWork h hmove
  | completeStageIfReady request => exact .inr fun _ _ _ h hmove => Queues.sameWork h hmove
  | claimNextWork request | completeAttempt request | failAttempt request =>
    refine .inl fun e h => ?_
    obtain ⟨_, rfl⟩ := h
    rfl
  | registerWorkerSession request =>
    refine .inl fun e h => ?_
    rcases h with rfl | rfl <;> rfl
  | stopWorkerSessionAndRecoverWork request =>
    refine .inl fun e h => ?_
    rcases h with rfl | ⟨_, rfl⟩ <;> rfl
  | recoverExpiredWorkerSessions request =>
    refine .inl fun e h => ?_
    obtain ⟨_, _, rfl | ⟨_, rfl | rfl⟩⟩ := h <;> rfl
  | _ =>
    refine .inl fun e h => ?_
    cases h
    rfl

/-- The inserts of an operation are of rows that it names. -/
theorem Op.causes_inserts {e : Event} (h : op.causes e) (he : e.inserts = true) :
    Queues op.items op.constraints op.enqueues e := by
  cases op with
  | insertWorkItems items | queueWorkItems request | enqueueWorkItems items | completeStageIfReady request =>
    exact h
  | claimNextWork request | completeAttempt request | failAttempt request =>
    obtain ⟨_, rfl⟩ := h
    cases he
  | registerWorkerSession request => rcases h with rfl | rfl <;> cases he
  | stopWorkerSessionAndRecoverWork request => rcases h with rfl | ⟨_, rfl⟩ <;> cases he
  | recoverExpiredWorkerSessions request => obtain ⟨_, _, rfl | ⟨_, rfl | rfl⟩⟩ := h <;> cases he
  | _ =>
    cases h
    cases he

theorem Op.causes_enqueue {row : QueuedRow} (h : op.causes (.enqueue row)) :
    ∃ q ∈ op.enqueues, row = ⟨q.id, q.queuedAt⟩ :=
  Op.causes_inserts h rfl

theorem Op.causes_insertConstraint {c : WorkItemResourceConstraintRecord} (h : op.causes (.insertConstraint c))
    : c ∈ op.constraints :=
  Op.causes_inserts h rfl

/-- **Guarded invariants**: a property that every move with a guard `G` keeps is kept by a call whose
inserts meet the guard before the call, if the guard speaks of inserts only and inserts do not break
it. -/
theorem Call.guarded_invariant {G : Store → Event → Prop} (hframe : ∀ s t e, SameWork s t → G s e → G t e)
    (hother : ∀ s e, e.inserts = false → G s e) (hmove : ∀ s e t, call.op.causes e → G s e → Move s e t → P s → P t)
    (hcall : ∀ e, call.op.causes e → G db e) (hdb : P db) : P (call.step db) := by
  rcases call.op.inserts_or_sameWork with hnone | hsame
  · refine (call.moves db).invariant (fun s e t hcause hst hs => ?_) hdb
    exact hmove s e t hcause (hother s e (hnone e hcause)) hst hs
  · have hboth := (call.moves db).invariant
      (P := fun s => P s ∧ ∀ e, call.op.causes e → G s e) (fun s e t hcause hst hs => ?_) ⟨hdb, hcall⟩
    · exact hboth.1
    refine ⟨hmove s e t hcause (hs.2 e hcause) hst hs.1, fun e' hcause' => ?_⟩
    exact hframe s t e' (hsame e s t hcause hst) (hs.2 e' hcause')

/-! ### A small deployment

Calls on fixed data, for the concrete runs that results are checked on: one project, one workflow, one
run with one stage, and work items, sessions and claims of it. Every connection enforces foreign keys. -/

namespace Sample

/-- The empty JSON object. -/
def object : String := "\x7b\x7d"

/-- A second of the deployment's first minute. -/
def second (n : ℕ) : String := "2024-01-01T00:00:0" ++ toString n ++ "Z"

/-- The submission of a run with one stage. -/
def submission : List Call := [
  ⟨true, .upsertProject ⟨"project", "", "repository", none, "path", "", "sha", second 0⟩⟩,
  ⟨true, .upsertWorkflow ⟨"workflow", "project", "", "repository", none, "path", "", "sha", second 0⟩⟩,
  ⟨true, .createWorkflowRun ⟨"run", "project", "workflow", object, second 0⟩⟩,
  ⟨true, .insertStagePlan "run"
    [⟨"run", 0, "step", "reference", .ready, second 0, "", "", "", "", "", ""⟩]⟩]

/-- A work item of the stage. -/
def item (id : String) (index : ℤ) : WorkItemRecord := ⟨id, "run", 0, index, object, "sha", second 0⟩

/-- A work item in the queue. -/
def queued (id : String) (index : ℤ) (queuedAt : String) : QueuedWorkRecord := ⟨item id index, queuedAt⟩

/-- Insert a work item with its constraints and queue it. -/
def queue (id : String) (index : ℤ) (constraints : List WorkItemResourceConstraintRecord) : Call :=
  ⟨true, .queueWorkItems ⟨[item id index], constraints, [queued id index (second 0)]⟩⟩

/-- A constraint of an item on the disk. -/
def onDisk (w : String) (requested limit : Int64) : WorkItemResourceConstraintRecord :=
  ⟨w, 0, "disk", requested, .lessThanOrEqual, limit, second 0⟩

/-- A worker registers a session. -/
def register (workerId sessionId : String) : Call :=
  ⟨true, .registerWorkerSession ⟨workerId, sessionId, second 1, ""⟩⟩

/-- A session claims work. -/
def claim (attemptId workerId sessionId : String) : Call :=
  ⟨true, .claimNextWork ⟨attemptId, workerId, sessionId, .worker, second 2, ""⟩⟩

/-- A report that an attempt completed. -/
def completeAs (attemptId workerId sessionId : String) : Call :=
  ⟨true, .completeAttempt ⟨attemptId, workerId, sessionId, "", "", object, "sha", "pre", "post", second 3⟩⟩

/-- Every session without a heartbeat since the third second expires. -/
def expire : Call := ⟨true, .recoverExpiredWorkerSessions ⟨second 3, second 4, "heartbeat_expired"⟩⟩

end Sample

end GoEtl.Persistence
