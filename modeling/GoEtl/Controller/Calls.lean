import GoEtl.Controller.System

/-!
# The calls of the controller

Whatever handlers do and however their steps interleave, each step is at most one call of the store, and of all the
calls the store has the handlers make only some: **`System.steps_calls`**. So what
these calls keep holds in every state of every run (`System.invariant`).
-/

namespace GoEtl.Controller

open Library Persistence Text Workflow

/-- A write that handlers may make. -/
def MadeByHandler : Op → Prop
  | .upsertProject _ => True
  | .upsertWorkflow _ => True
  | .createWorkflowRun _ => True
  | .updateWorkflowRunSubmissionContext _ _ => True
  | .insertStagePlan _ stages => ∀ stage ∈ stages, stage.state = .ready
  | .insertWorkflowDependencySteps _ => True
  | .insertWorkflowDependencyWorkItemMembership items => ∃ m, items = [m]
  | .upsertWorkflowStepOutputFact _ => True
  | .queueWorkItems _ => True
  | .enqueueWorkItems _ => True
  | .completeAttempt _ => True
  | .failAttempt _ => True
  | _ => False

/-- At most one call of the store that handlers may make. -/
def Calls (w w' : World) : Prop :=
  w'.db = w.db ∨ ∃ call : Call, MadeByHandler call.op ∧ w'.db = call.step w.db

theorem Calls.refl (w : World) : Calls w w := .inl rfl

section Steps

variable {rt : Runtime} {runId : String} {α : Type}

abbrev CallSteps {ε : Type} (p : Prog World Input ε α) : Prop := p.Steps Calls

attribute [local simp] Prog.Steps.ret Prog.Steps.pure Prog.Steps.fail Prog.Steps.ofExcept Prog.Steps.bind Prog.Steps.forM

/-- A transaction that is an operation of the store. -/
theorem transaction_steps {m : Input → StoreTx α} (op : Input → Op)
    (hm : ∀ i db, (m i).commit db = ((op i).tx i.fk).commit db) (hop : ∀ i, MadeByHandler (op i)) :
    CallSteps (transaction m) := by
  refine .step (fun i w => .inr ⟨⟨i.fk, op i⟩, hop i, hm i w.db⟩) fun i w => ?_
  split <;> simp

@[simp] theorem query_steps {ε : Type} (g : Store → α) : CallSteps (query g : Prog World Input ε α) := .read Calls.refl _

theorem queryOrFail_steps {ε : Type} (g : Store → Except ε α) : CallSteps (queryOrFail g) :=
  .bind (query_steps g) fun _ => .ofExcept _

theorem call_steps {m : Input → StoreTx α} (op : Input → Op)
    (hm : ∀ i db, (m i).commit db = ((op i).tx i.fk).commit db) (hop : ∀ i, MadeByHandler (op i)) :
    CallSteps (call rt m) :=
  .mapError (transaction_steps op hm hop)

@[simp] theorem withContext_steps {context : String} {p : Ctl α} (h : CallSteps p) : CallSteps (withContext context p) :=
  .mapError h

/-! ### The dependency state -/

theorem readStepRows_steps (records : List WorkflowDependencyStepRecord) : CallSteps (readStepRows runId records) := by
  induction records with
  | nil => exact .ret _
  | cons record records ih =>
    exact .bind (query_steps _) fun _ => .bind (queryOrFail_steps _) fun _ => .bind ih fun _ => .ret _

@[simp] theorem getWorkflowDependencyState_steps : CallSteps (getWorkflowDependencyState rt runId) := by
  refine .bind (query_steps _) fun run => ?_
  split
  · exact .ret _
  · refine .bind (query_steps _) fun records => ?_
    split
    · exact .ret _
    · refine .bind ?_ fun _ => .ret _
      exact .bind (query_steps _) fun _ => .bind (query_steps _) fun _ => .bind (queryOrFail_steps _) fun _ =>
        .bind (readStepRows_steps _) fun _ => .ofExcept _

variable {plan : DependencyPlan}

@[simp] theorem setWorkflowDependencyState_steps :
    CallSteps (setWorkflowDependencyState rt runId plan) := by
  refine .bind (.ofExcept _) fun _ => ?_
  split
  · refine .bind (query_steps _) fun run => ?_
    split
    · exact .fail _
    · exact .bind (.ofExcept _) fun _ => .bind (.ofExcept _) fun text => withContext_steps
        (call_steps (fun _ => .updateWorkflowRunSubmissionContext runId text) (fun _ _ => rfl) fun _ => trivial)
  · exact .ret _
  · exact .ret _

@[simp] theorem upsertStepOutputFact_steps {step : DependencyStep} {kind : OutputKind} :
    CallSteps (upsertStepOutputFact rt runId step kind) := by
  unfold upsertStepOutputFact
  split
  · exact .fail _
  · exact call_steps (fun _ => .upsertWorkflowStepOutputFact _) (fun _ _ => rfl) fun _ => trivial

@[simp] theorem upsertTerminalPrunedWorkflowStepOutputFacts_steps :
    CallSteps (upsertTerminalPrunedWorkflowStepOutputFacts rt plan) := by
  have hround : ∀ step ∈ plan.steps, CallSteps (upsertPrunedFact rt plan.runId step) := fun step _ => by
    unfold upsertPrunedFact
    split <;> simp
  unfold upsertTerminalPrunedWorkflowStepOutputFacts
  split
  · simp
  · exact .forM hround
  · exact .forM hround

variable {k : ℤ} {reason : String}

@[simp] theorem markWorkflowStageActivationFailed_steps :
    CallSteps (markWorkflowStageActivationFailed rt runId k reason) := by
  refine .bind getWorkflowDependencyState_steps fun plan => ?_
  split <;> simp

variable {workItemId : String}

@[simp] theorem recordWorkItemTerminalState_steps {state : WorkItemMembershipState} :
    CallSteps (recordWorkItemTerminalState rt runId workItemId state reason) := by
  refine .bind (.ofExcept _) fun _ => .bind getWorkflowDependencyState_steps fun plan => ?_
  repeat' split
  all_goals simp

@[simp] theorem recordCompiledWorkItemMembership_steps {m : StageMembership} :
    CallSteps (recordCompiledWorkItemMembership rt runId m) := by
  refine .bind (.ofExcept _) fun _ => .bind getWorkflowDependencyState_steps fun plan => ?_
  split
  · exact .fail _
  · split
    · exact .fail _
    · refine .bind (.ofExcept _) fun _ => .bind ?_ fun _ => setWorkflowDependencyState_steps
      exact call_steps (fun _ => .insertWorkflowDependencyWorkItemMembership _) (fun _ _ => rfl) fun _ => ⟨_, rfl⟩

@[simp] theorem recordCompletedWorkItemOutput_steps {output hash : String} :
    CallSteps (recordCompletedWorkItemOutput rt runId workItemId output hash) := by
  refine .bind (.ofExcept _) fun _ => .bind (.ofExcept _) fun canonical =>
    .bind getWorkflowDependencyState_steps fun plan => ?_
  repeat' split
  any_goals simp
  refine .bind (.ofExcept _) fun _ => .bind ?_ fun _ => setWorkflowDependencyState_steps
  unfold upsertAggregate
  split <;> simp

theorem markCompiledStageEmptyStepsCompleted_steps {result : CompileStageResult} :
    CallSteps (markCompiledStageEmptyStepsCompleted rt runId result) := by
  refine .bind getWorkflowDependencyState_steps fun plan => ?_
  split
  · simp
  · split
    · simp
    · dsimp only
      split
      · simp
      · exact .bind (.forM fun _ _ => upsertStepOutputFact_steps) fun _ =>
          .bind setWorkflowDependencyState_steps fun _ => .ret _

theorem markWorkflowStageReady_steps : CallSteps (markWorkflowStageReady rt runId k) := by
  refine .bind getWorkflowDependencyState_steps fun plan => ?_
  repeat' split
  all_goals simp

/-! ### Activation and dependents -/

theorem compileActivationStage_steps :
    CallSteps (compileActivationStage rt runId plan k) := by
  refine .bind (.step (fun _ _ => .inl rfl) fun _ _ => .ret _) fun run => ?_
  split
  · exact .fail _
  · refine .bind (.ofExcept _) fun _ => ?_
    split
    · exact .fail _
    · exact .bind (.ofExcept _) fun _ => .ofExcept _

@[simp] theorem queueWorkItems_steps {context : String} {request : QueueWorkItemsRequest} :
    CallSteps (withContext context (call rt fun i => queueWorkItems i.fk request)) :=
  withContext_steps (call_steps (fun _ => .queueWorkItems request) (fun _ _ => rfl) fun _ => trivial)

variable {timestamp : String}

theorem activateStage_steps :
    CallSteps (activateStage rt runId timestamp plan k) := by
  refine .bind compileActivationStage_steps fun compiled => .bind (.ofExcept _) fun records =>
    .bind markCompiledStageEmptyStepsCompleted_steps fun completed => ?_
  split
  · exact .ret _
  · split
    · exact .ret _
    · refine .bind (.bind queueWorkItems_steps fun _ => .forM fun _ _ => ?_) fun _ =>
        .bind markWorkflowStageReady_steps fun _ => .ret _
      exact withContext_steps recordCompiledWorkItemMembership_steps

@[simp] theorem failWorkflowStageActivation_steps {cause : String} :
    CallSteps (failWorkflowStageActivation rt runId k cause) := by
  refine .bind (.attempt markWorkflowStageActivationFailed_steps) fun result => ?_
  split <;> simp

@[simp] theorem activateStages_steps {rounds : ℕ} :
    CallSteps (activateStages rt runId timestamp rounds plan k) := by
  induction rounds generalizing plan k with
  | zero => exact .ret _
  | succ rounds ih =>
    unfold activateStages
    split
    · exact .ret _
    · split
      · exact .ret _
      · refine .bind (.attempt activateStage_steps) fun result => ?_
        split
        · simp
        · simp
        · refine .bind getWorkflowDependencyState_steps fun next => ?_
          split <;> simp [ih]

@[simp] theorem activateNextReadyWorkflowStage_steps :
    CallSteps (activateNextReadyWorkflowStage rt runId k timestamp) := by
  refine .bind getWorkflowDependencyState_steps fun plan => ?_
  repeat' split
  all_goals simp

@[simp] theorem enqueueReadyAssetMaterializeDependents_steps {completed : WorkItemRecord} :
    CallSteps (enqueueReadyAssetMaterializeDependents rt completed timestamp) := by
  refine .bind (queryOrFail_steps _) fun _ => .bind (query_steps _) fun _ => .bind (query_steps _) fun _ =>
    .bind (queryOrFail_steps _) fun _ => .bind (query_steps _) fun _ => .bind (.ofExcept _) fun ready => ?_
  split
  · exact .ret _
  · refine .bind (withContext_steps ?_) fun _ => .forM fun _ _ => withContext_steps recordCompiledWorkItemMembership_steps
    exact call_steps (fun _ => .enqueueWorkItems _) (fun _ _ => rfl) fun _ => trivial

@[simp] theorem failAssetMaterializeDependents_steps {failed : WorkItemRecord} :
    CallSteps (failAssetMaterializeDependents rt failed reason) := by
  refine .bind (.ofExcept _) fun item => ?_
  split <;> simp

/-! ### Handlers -/

theorem orServerError_steps {p : Ctl Answer} (h : CallSteps p) : CallSteps (orServerError p) := by
  refine .bind (.attempt h) fun result => ?_
  split <;> simp

@[simp] theorem recordWorkItemDependency_steps {state : WorkItemMembershipState} :
    CallSteps (recordWorkItemDependency rt workItemId state reason) := by
  refine .bind (query_steps _) fun found => ?_
  split <;> simp

theorem afterCompletion_steps {completion : WorkCompletion} {completed : CompletedWorkRecord} {now : Instant} :
    CallSteps (afterCompletion rt completion completed now) := by
  refine .bind (query_steps _) fun found => ?_
  split
  · exact .ret _
  · split
    · exact .ret _
    · dsimp only
      split
      · exact .bind enqueueReadyAssetMaterializeDependents_steps fun _ => .ret _
      · refine .bind (.attempt ?_) fun result => ?_
        · unfold recordOutput
          split <;> simp
        · split
          · refine .bind (.attempt recordWorkItemTerminalState_steps) fun result => ?_
            split
            · exact .ret _
            · exact .ret _
          · exact .bind recordWorkItemDependency_steps fun _ =>
              .bind enqueueReadyAssetMaterializeDependents_steps fun _ =>
                .bind activateNextReadyWorkflowStage_steps fun _ => .ret _

theorem completePersistedWorkHandler_steps {received : Received} {completion : WorkCompletion} :
    CallSteps (completePersistedWorkHandler rt received completion) := by
  unfold completePersistedWorkHandler
  split
  · exact .ret _
  · split
    · exact .ret _
    · split
      · exact .ret _
      · rename_i request _ _ _
        refine .bind (.attempt (transaction_steps (fun _ => .completeAttempt request) ?_ fun _ => trivial))
          fun result => ?_
        · exact fun i db => (Tx.commit_bind_pure _ _ db).trans (Tx.commit_bind_pure _ (fun _ => ()) db).symm
        · split
          · exact .ret _
          · exact .ret _
          · exact orServerError_steps afterCompletion_steps

theorem failPersistedWorkHandler_steps {received : Received} {failure : WorkFailure} :
    CallSteps (failPersistedWorkHandler rt received failure) := by
  unfold failPersistedWorkHandler
  split
  · exact .ret _
  · rename_i request _
    refine .bind (.attempt (transaction_steps (fun _ => .failAttempt request) ?_ fun _ => trivial)) fun result => ?_
    · exact fun i db => (Tx.commit_bind_pure _ (fun _ => ()) db).symm
    · split
      · exact .ret _
      · exact .ret _
      · refine orServerError_steps (.bind (query_steps _) fun found => ?_)
        split
        · exact .ret _
        · exact .bind failAssetMaterializeDependents_steps fun _ => .bind recordWorkItemDependency_steps fun _ => .ret _

theorem createWorkflowDependencyPlan_steps {workflowId : String} {stages : List Stage} :
    CallSteps (createWorkflowDependencyPlan rt runId workflowId stages) := by
  refine .bind (.ofExcept _) fun _ => .bind (query_steps _) fun found => ?_
  split
  · exact .fail _
  · refine .bind getWorkflowDependencyState_steps fun plan => ?_
    split
    · exact .fail _
    · refine .bind (.ofExcept _) fun _ => .bind (.ofExcept _) fun _ => .bind ?_ fun _ => setWorkflowDependencyState_steps
      exact call_steps (fun i => .insertWorkflowDependencySteps (dependencyStepRecords runId i.now.format stages))
        (fun _ _ => rfl) fun _ => trivial

variable {submission : Submission}

theorem startRun_steps {codeVersion : String} {stages : List Stage} {result : CompileStageResult}
    : CallSteps (startRun rt submission codeVersion stages result) := by
  refine .bind (withContext_steps createWorkflowDependencyPlan_steps) fun _ => .bind (.ofExcept _) fun records =>
    .bind (.bind ?_ fun _ => .forM fun _ _ => withContext_steps recordCompiledWorkItemMembership_steps) fun _ =>
      .bind markCompiledStageEmptyStepsCompleted_steps fun completed => .bind ?_ fun _ => .ret _
  · unfold queueInitialItems
    split <;> simp
  · unfold activateIfCompleted
    split <;> simp

theorem stageRecordsFromWorkflow_ready {workflow : WorkflowDefinition} :
    ∀ stage ∈ stageRecordsFromWorkflow submission workflow, stage.state = .ready := by
  intro stage hstage
  obtain ⟨n, hn, rfl⟩ := List.mem_mapIdx.1 hstage
  rfl

theorem submitWorkflowHandler_steps : CallSteps (submitWorkflowHandler rt submission) := by
  refine .bind (.attempt ?_) fun result => ?_
  · refine .bind (.ofExcept _) fun workflow =>
      .bind (withContext_steps (call_steps (fun _ => .upsertProject _) (fun _ _ => rfl) fun _ => trivial)) fun _ =>
      .bind (withContext_steps (call_steps (fun _ => .upsertWorkflow _) (fun _ _ => rfl) fun _ => trivial)) fun _ =>
      .bind (.ofExcept _) fun codeVersion => .bind (.ofExcept _) fun compiled =>
      .bind (withContext_steps (call_steps (fun _ => .createWorkflowRun _) (fun _ _ => rfl) fun _ => trivial)) fun _ => ?_
    split
    · exact .ret _
    · refine .bind (withContext_steps (call_steps (fun _ => .insertStagePlan _ _) (fun _ _ => rfl) fun _ => ?_)) fun _ =>
        startRun_steps
      exact stageRecordsFromWorkflow_ready
  · split
    · exact .ret _
    · exact .ret _

theorem serve_steps (request : Request) : CallSteps (serve rt request) := by
  cases request with
  | submit submission => exact submitWorkflowHandler_steps
  | complete received completion => exact completePersistedWorkHandler_steps
  | fail received failure => exact failPersistedWorkHandler_steps

end Steps

/-! ### Runs -/

variable {rt : Runtime} {moves : List SystemMove}

/-- **Every step of the system** is at most one call of the store, by a handler or beside the handlers, whatever the
interleaving. -/
theorem System.steps_calls {x : System × SystemMove × System} (hx : x ∈ System.steps rt moves) :
    x.2.2.state.db = x.1.state.db ∨ ∃ call : Call, (MadeByHandler call.op ∨ ∃ a : Activity, call.op = a.op) ∧
      x.2.2.state.db = call.step x.1.state.db := by
  have hinitial : System.initial.Within Calls := fun _ ht => absurd ht List.not_mem_nil
  rcases hinitial.of_mem_trace serve_steps hx with ⟨b, _, hstate⟩ | (hsame | ⟨call, hcall, hstep⟩) | hsame
  · exact .inr ⟨⟨b.fk, b.activity.op⟩, .inr ⟨_, rfl⟩, hstate ▸ rfl⟩
  · exact .inl hsame
  · exact .inr ⟨call, .inl hcall, hstep⟩
  · exact .inl (hsame ▸ rfl)

/-- What every call that is made keeps holds of the database in every state of a run. -/
theorem System.invariant {P : Store → Prop} (hinitial : P Store.empty)
    (hcall : ∀ db (call : Call), MadeByHandler call.op ∨ (∃ a : Activity, call.op = a.op) → P db → P (call.step db)) :
    P (System.after rt moves).state.db := by
  refine run_invariant (s := System.initial) (P := fun s => P s.state.db) (C := fun s m => P s.state.db → P (System.step rt s m).state.db)
    (fun _ _ => id) (fun x hx hP => ?_) hinitial
  have happly : x.2.2 = System.step rt x.1 x.2.1 := apply_of_mem_trace hx
  rw [← happly]
  rcases System.steps_calls hx with hsame | ⟨call, hmade, hstep⟩
  · rwa [hsame]
  · rw [hstep]
    exact hcall _ call hmade hP

end GoEtl.Controller
