import GoEtl.Controller.Calls
import GoEtl.Controller.Failures
import GoEtl.Persistence.Names

/-!
# Startup, and the runs that are active

What a controller process does before it admits work: it verifies the sources of the runs that the store lists as
active (`cmd/controller/source_reload.go`). The same list is what the status counts failures over. The list goes by
the stage rows of a run, and these are written when the run is submitted and never changed, so that every run is on
it for ever (**`listActiveWorkflowRuns_perm`**). It is the list of the unfinished runs as long as none is finished
(**`active_runs_unfinished`**).
-/

namespace GoEtl.Controller

open Library Persistence

/-! ### Startup -/

/-- `AdmittedSourceManifest`: the source, and the text of everything else. -/
structure SourceManifest where
  repository : String
  revisionId : Option String
  content : String

/-- What startup reads outside the database. -/
structure SourceFiles where
  /-- `workflowRunSourceContext`: the repository and the place of the manifest, if the run has one. -/
  context : WorkflowRunRecord → Except String (Option (String × String))
  /-- `readAdmittedSourceManifest`. -/
  manifest : String → Except String SourceManifest
  /-- `verifyCachedRunSource`, before and after a repair. -/
  verifyCached : Bool → ProjectRecord → WorkflowRecord → SourceManifest → Except String Unit
  /-- `repairGitHubRunSource`. -/
  repair : SourceManifest → Except String Unit

/-- `isRepairableGitHubSource`. -/
def SourceManifest.isRepairable (manifest : SourceManifest) : Bool :=
  manifest.revisionId.getD "" != "" && "github.com/".isPrefixOf manifest.repository

section

variable (files : SourceFiles)

/-- The part of `verifyWorkflowRunSource` after the reads of the database. -/
def verifyFiles (run : WorkflowRunRecord) (project : ProjectRecord) (workflow : WorkflowRecord)
    (repository manifestRef : String) : Except String Unit := do
  let manifest ← wrapError ("reload run " ++ run.id ++ " source " ++ repository) (files.manifest manifestRef)
  match files.verifyCached false project workflow manifest with
  | .ok () => pure ()
  | .error e =>
    let source := "reload run " ++ run.id ++ " source " ++ manifest.repository
    if manifest.isRepairable then do
      wrapError (source ++ " repair") (files.repair manifest)
      wrapError (source ++ " repaired cache failed verification") (files.verifyCached true project workflow manifest)
    else .error (source ++ ": local source cache cannot be repaired: " ++ e)

/-- `verifyWorkflowRunSource`. -/
def verifyWorkflowRunSource (run : WorkflowRunRecord) : Ctl Unit := do
  match ← .ofExcept (files.context run) with
  | none => pure ()
  | some (repository, manifestRef) =>
    match ← query (getProject · run.projectId) with
    | none => .fail ("reload run " ++ run.id ++ " project " ++ run.projectId ++ " was not found")
    | some project =>
      match ← query (getWorkflow · run.workflowId) with
      | none => .fail ("reload run " ++ run.id ++ " workflow " ++ run.workflowId ++ " was not found")
      | some workflow => .ofExcept (verifyFiles files run project workflow repository manifestRef)

/-- `verifyActiveRunSources`, which is all that `completeStartupRecovery` does before it allows admission: with an
error the controller does not start. -/
def verifyActiveRunSources : Ctl Unit := do
  (← query listActiveWorkflowRuns).forM (verifyWorkflowRunSource files)

end

/-! ### The status -/

/-- The loop of `persistenceControllerStatus` that counts failures. -/
def sumFailed : List WorkflowRunRecord → Ctl ℕ
  | [] => pure 0
  | run :: runs => do
    let failed ← withContext ("count work items for run " ++ run.id) (queryOrFail (countFailedForRun · run.id))
    let rest ← sumFailed runs
    pure (failed + rest)

/-- The `Failed` count of `persistenceControllerStatus`. -/
def statusFailed : Ctl ℕ := do
  sumFailed (← query listActiveWorkflowRuns)

/-! ### Both read only -/

theorem query_steps_eq {ε α : Type} (g : Store → α) : (query g : Prog World Input ε α).Steps Eq := .read (fun _ => rfl) _

theorem verifyWorkflowRunSource_steps {files : SourceFiles} {run : WorkflowRunRecord} :
    (verifyWorkflowRunSource files run).Steps Eq := by
  refine .bind (.ofExcept _) fun context => ?_
  split
  · exact .ret _
  · refine .bind (query_steps_eq _) fun project => ?_
    split
    · exact .fail _
    · refine .bind (query_steps_eq _) fun workflow => ?_
      split
      · exact .fail _
      · exact .ofExcept _

/-- A loop of reads that fails does so in one of its rounds. -/
theorem exists_of_forM_alone {κ : Type} {xs : List κ} {f : κ → Ctl Unit} (hf : ∀ x, (f x).Steps Eq) {i : Input}
    {w : World} {e : String} (h : ((xs.forM f).alone i w).1 = .error e) :
    ∃ x ∈ xs, ((f x).alone i w).1 = .error e := by
  induction xs with
  | nil => cases h
  | cons x xs ih =>
    have hsame := (hf x).alone_eq i w
    rw [show (x :: xs).forM f = f x >>= fun _ => xs.forM f from rfl, Prog.alone_bind] at h
    rcases hr : (f x).alone i w with ⟨e' | a, t⟩
    · rw [hr] at h
      exact ⟨x, List.mem_cons_self, by rw [hr]; exact h⟩
    · rw [hr] at h hsame
      obtain rfl : t = w := hsame
      obtain ⟨y, hy, hfail⟩ := ih h
      exact ⟨y, List.mem_cons_of_mem x hy, hfail⟩

theorem queryOrFail_alone {α : Type} {context : String} {g : Store → Except String α} (i : Input) (w : World) :
    (withContext context (queryOrFail g)).alone i w = ((g w.db).mapError (context ++ ": " ++ ·), w) := by
  change (Prog.mapError _ (Prog.ofExcept (g w.db)) : Ctl α).alone i w = _
  cases g w.db <;> rfl

/-- What the loop over runs counts when nothing goes on beside it. -/
theorem sumFailed_alone {runs : List WorkflowRunRecord} {i : Input} {w : World} {n : ℕ}
    (h : ((sumFailed runs).alone i w).1 = .ok n) : n = (runs.map fun run => failedOfRun w.db run.id).sum := by
  induction runs generalizing n with
  | nil =>
    cases h
    rfl
  | cons run runs ih =>
    rw [sumFailed, Prog.alone_bind, queryOrFail_alone, countFailedForRun] at h
    by_cases hid : run.id = ""
    · rw [if_pos hid] at h
      cases h
    · rw [if_neg hid] at h
      change ((sumFailed runs >>= fun rest => pure (failedOfRun w.db run.id + rest)).alone i w).1 = _ at h
      rw [Prog.alone_bind] at h
      rcases hrest : (sumFailed runs).alone i w with ⟨e | rest, t⟩
      · rw [hrest] at h
        cases h
      · rw [hrest] at h
        cases h
        rw [List.map_cons, List.sum_cons, ← ih (congrArg Prod.fst hrest)]

/-! ### The list -/

variable {rt : Runtime} {moves : List SystemMove} {w : World}

/-- No call that is made changes a stage row; new ones are ready. -/
theorem workflowStages_of_call {db : Store} {call : Call}
    (hmade : MadeByHandler call.op ∨ ∃ a : Activity, call.op = a.op) :
    ∀ stage ∈ (call.step db).workflowStages, stage ∈ db.workflowStages ∨ stage.state = .ready := by
  intro stage hstage
  -- A call that fails changes nothing.
  rcases Tx.commit_cases (call.op.tx call.fk) db with ⟨_, _, hstep⟩ | ⟨_, db', htx, hstep⟩
  · exact .inl (by rwa [Call.step, hstep] at hstage)
  rw [Call.step, hstep] at hstage
  rcases (Op.frame htx).2 with hsame | ⟨runId, stages, hop⟩ | ⟨request, hop⟩
  · exact .inl (hsame ▸ hstage)
  · rw [hop] at htx hmade
    obtain ⟨t, ht, rfl⟩ := insertStagePlan_ok htx
    rcases hmade with hmade | ⟨a, ha⟩
    · exact ((ht stage).2 hstage).imp_right (hmade stage)
    · cases a <;> cases ha
  · rw [hop] at hmade
    rcases hmade with hmade | ⟨a, ha⟩
    · exact hmade.elim
    · cases a <;> cases ha

/-- In every state of the system the stage rows are ready. -/
theorem System.stages_ready : ∀ stage ∈ (System.after rt moves).state.db.workflowStages, stage.state = .ready :=
  System.invariant (P := fun db => ∀ stage ∈ db.workflowStages, stage.state = .ready)
    (fun _ hstage => absurd hstage List.not_mem_nil) fun _ _ hmade hdb stage hstage =>
      (workflowStages_of_call hmade stage hstage).elim (hdb stage) id

/-- **Every run is active**, in every state of the system. -/
theorem listActiveWorkflowRuns_perm : (listActiveWorkflowRuns (System.after rt moves).state.db).Perm
    (System.after rt moves).state.db.workflowInstances.rows := by
  refine (List.perm_insertionSort _ _).trans (List.Perm.of_eq (List.filter_eq_self.2 fun run _ => ?_))
  by_cases hstage : (System.after rt moves).state.db.workflowStages.any (·.runId == run.id) = true
  · obtain ⟨stage, hmem, hid⟩ := List.any_eq_true.1 hstage
    refine Bool.or_eq_true_iff.2 (.inr (List.any_eq_true.2 ⟨stage, hmem, ?_⟩))
    simp [hid, WorkflowStageRecord.isOpen, System.stages_ready stage hmem]
  · simp [hstage]

/-- The run is derived as completed or failed. -/
def isFinished (rt : Runtime) (i : Input) (w : World) (runId : String) : Bool :=
  match derivedState rt i w runId with
  | .ok (some plan) => plan.state != .running
  | _ => false

/-- **The active runs are the unfinished ones** while no run is finished. Then the runs that keep the controller from
starting are unfinished, and so are those whose failures the status counts. -/
theorem active_runs_unfinished {i : Input} (hw : w = (System.after rt moves).state)
    (hnone : ∀ run ∈ w.db.workflowInstances, isFinished rt i w run.id = false) :
    (∀ run, run ∈ listActiveWorkflowRuns w.db ↔ run ∈ w.db.workflowInstances ∧ isFinished rt i w run.id = false) ∧
      (∀ files e, ((verifyActiveRunSources files).alone i w).1 = .error e →
        ∃ run ∈ w.db.workflowInstances, isFinished rt i w run.id = false ∧
          ((verifyWorkflowRunSource files run).alone i w).1 = .error e) ∧
      ∀ n, (statusFailed.alone i w).1 = .ok n →
        n = ((w.db.workflowInstances.rows.filter fun run => !isFinished rt i w run.id).map
          fun run => failedOfRun w.db run.id).sum := by
  have hperm : (listActiveWorkflowRuns w.db).Perm w.db.workflowInstances.rows := by
    rw [hw]
    exact listActiveWorkflowRuns_perm
  have hlist : ∀ run, run ∈ listActiveWorkflowRuns w.db ↔ run ∈ w.db.workflowInstances := fun _ => hperm.mem_iff
  refine ⟨fun run => ?_, fun files e he => ?_, fun n hn => ?_⟩
  · rw [hlist]
    exact (and_iff_left_of_imp (hnone run)).symm
  · obtain ⟨run, hrun, hfail⟩ := exists_of_forM_alone (fun _ => verifyWorkflowRunSource_steps) he
    exact ⟨run, (hlist run).1 hrun, hnone run ((hlist run).1 hrun), hfail⟩
  · rw [sumFailed_alone hn, List.filter_eq_self.2 fun run hrun => by simp [hnone run hrun]]
    exact (hperm.map _).sum_nat

namespace Sample

open Persistence.Sample

/-- While the first stage runs, the active run is the unfinished one. -/
theorem bothReport_active : (∀ run, run ∈ listActiveWorkflowRuns
      (System.after (runtime twoStages threeItems) bothReport).state.db ↔
        run ∈ (System.after (runtime twoStages threeItems) bothReport).state.db.workflowInstances ∧
          isFinished (runtime twoStages threeItems) input
            (System.after (runtime twoStages threeItems) bothReport).state run.id = false) ∧
    (listActiveWorkflowRuns (System.after (runtime twoStages threeItems) bothReport).state.db).map (·.id) = ["run"] :=
  ⟨(active_runs_unfinished rfl (by decide +kernel)).1, by decide +kernel⟩

/-- After both stages were completed and reported. -/
def toTheEnd : List SystemMove :=
  oneByOne ++ [arrives "worker3" "session3", claims "attempt3" "worker3" "session3",
    report "attempt3" "worker3" "session3" (second 4)] ++ turn 3 36

/-- The state at the end. -/
def atTheEnd : World := (System.after (runtime twoStages threeItems) toTheEnd).state

/-- A directory in which the sources of runs are gone. -/
def noFiles : SourceFiles where
  context _ := .ok (some ("repository", "manifest.json"))
  manifest _ := .error "read admitted source manifest: no such file or directory"
  verifyCached _ _ _ _ := .ok ()
  repair _ := .ok ()

/-- **A finished run stays active**: the run is completed and still on the list, and because its sources are gone the
controller does not start. The failure of a run that has failed is counted, too. -/
theorem finished_run_is_active :
    isFinished (runtime twoStages threeItems) input atTheEnd "run" = true ∧
      (listActiveWorkflowRuns atTheEnd.db).map (·.id) = ["run"] ∧
      ((verifyActiveRunSources noFiles).alone input atTheEnd).1 = .error
        "reload run run source repository: read admitted source manifest: no such file or directory" ∧
      isFinished (runtime twoStages threeItems) input
        (System.after (runtime twoStages threeItems) oneFails).state "run" = true ∧
      (statusFailed.alone input (System.after (runtime twoStages threeItems) oneFails).state).1 = .ok 1 := by
  decide +kernel

end Sample

end GoEtl.Controller
