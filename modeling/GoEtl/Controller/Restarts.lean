import GoEtl.Controller.Startup

/-!
# Restarts

When the controller process is killed its handlers are gone, and the next process starts with the database alone. It
verifies the sources of the active runs, which only reads, and its caretaker recovers the work of expired sessions.
Nothing takes up what a killed handler had still to do (`Sample.lost_with_its_handler`). So runs are where they
should be after a restart only if no handler was in progress: **`restart_between_handlers`**.
-/

namespace GoEtl.Controller

open Persistence

/-- `completeStartupRecovery` of the next process, and then the recovery of `reconcileDetailed`, once the handlers are
gone. A process that does not start recovers nothing. -/
def restarted (files : SourceFiles) (i : Input) (request : RecoverExpiredWorkerSessionsRequest) (w : World) : World :=
  match (verifyActiveRunSources files).alone i w with
  | (.ok (), w) => Beside.act w ⟨i.fk, .recover request⟩
  | (.error _, w) => w

variable {rt : Runtime} {u v : Prop} {w : World}

theorem verifyActiveRunSources_steps (files : SourceFiles) : (verifyActiveRunSources files).Steps Eq :=
  .bind (query_steps_eq _) fun _ => .forM fun _ _ => verifyWorkflowRunSource_steps

section

variable (files : SourceFiles) (i : Input) (request : RecoverExpiredWorkerSessionsRequest)

/-- A restart changes nothing, or recovers work. -/
theorem restarted_eq (w : World) :
    restarted files i request w = w ∨ restarted files i request w = Beside.act w ⟨i.fk, .recover request⟩ := by
  have hsame := (verifyActiveRunSources_steps files).alone_eq i w
  unfold restarted
  rcases hverify : (verifyActiveRunSources files).alone i w with ⟨e | _, t⟩
  · rw [hverify] at hsame
    exact .inl hsame
  · rw [hverify] at hsame
    obtain rfl : t = w := hsame
    exact .inr rfl

theorem AtRest.restarted (h : AtRest rt u False w) : AtRest rt u False (restarted files i request w) := by
  rcases restarted_eq files i request w with hsame | hact
  · rwa [hsame]
  · rw [hact]
    exact h.act False.elim

end

namespace Sample

open Persistence.Sample

/-- A directory in which all sources are as they were. -/
def allFiles : SourceFiles := { noFiles with context := fun _ => .ok none }

/-- The next process, with this database. -/
def restartedFrom (moves : List SystemMove) : World :=
  restarted allFiles input ⟨second 3, second 6, "heartbeat_expired"⟩
    (System.after (runtime twoStages threeItems) moves).state

/-- The second handler is killed when it has completed its attempt. -/
def killed : List SystemMove := bothReport ++ turn 1 35 ++ turn 2 1

end Sample

end GoEtl.Controller
