import GoEtl.Controller.Progress

/-!
# The barrier between stages

No stage is started before the stages before it have completed, and the output of a step is recorded only when its
work items have completed: **`stage_barrier`**. Both are read off memberships, which a work item that waits for
another one of its stage gets only when it is queued. So the work items of a step have to become members together.
If they wait for different work items, the output of the step is recorded without those that still wait
(`Sample.published_without_waiting`).
-/

namespace GoEtl.Controller

open Persistence Workflow

variable {rt : Runtime} {u v : Prop} {moves : List SystemMove}

/-- The work items of the stages before one that has work items have completed. -/
def Barred (w : World) : Prop :=
  ∀ x ∈ w.db.workItems, ∀ y ∈ w.db.workItems, y.runId = x.runId → y.stageIndex < x.stageIndex → IsCompleted w.db y.id

instance : DecidablePred Barred := fun w => inferInstanceAs (Decidable (∀ x ∈ w.db.workItems, _))

/-- A work item of an earlier stage is there before a step of a handler. -/
theorem HandlerStep.mem_earlier {w w' : World} (h : HandlerStep rt u w w') {x y : WorkItemRecord}
    (hx : x ∈ w.db.workItems) (hy : y ∈ w'.db.workItems) (hrun : y.runId = x.runId) (hlt : y.stageIndex < x.stageIndex) :
    y ∈ w.db.workItems := by
  refine (h.inserted y hy).resolve_right fun hnew => ?_
  exact absurd (hnew.1 x hx hrun.symm) (not_lt.2 hlt.le)

theorem HandlerStep.barred {w w' : World} (hu : u) (h : HandlerStep rt u w w') (hw : Barred w) : Barred w' := by
  intro x hx y hy hrun hlt
  rcases h.barrier hu x hx with ⟨hold, _⟩ | hlater
  · exact h.completed _ (hw x hold y (h.mem_earlier hold hy hrun hlt) hrun hlt)
  · exact h.completed _ (hlater y hy hrun hlt)

theorem Barred.carried {w w' : World} (h : Carried ∅ w.db w'.db) (hw : Barred w) : Barred w' := by
  intro x hx y hy hrun hlt
  rw [h.items] at hx hy
  exact (h.completed _).2 (.inl (hw x hx y hy hrun hlt))

/-- Stages are barred in every state of an orderly run, and before every step. -/
theorem Orderly.barred (hrt : rt.Lawful) (h : Orderly rt True v moves) : Barred (System.after rt moves).state :=
  h.invariant hrt (P := Barred) (fun _ hx => absurd hx List.not_mem_nil) (fun _ _ hstep => hstep.barred trivial)
    fun _ _ _ hcarried => Barred.carried hcarried

namespace Sample

open Persistence.Sample

/-- A step, a step that commits its results in the same stage, and a step in the next stage. -/
def committing : WorkflowDefinition := ⟨"workflow", [⟨"source", "both"⟩, ⟨"commit", "both"⟩, ⟨"next", ""⟩], ""⟩

/-- The first two steps have two work items each, and each commit waits for the work item that it commits. -/
def commits : List (String × WorkItem) := [
  ("1", workItem "source" "s1" (.other "query") []), ("2", workItem "source" "s2" (.other "query") []),
  ("3", workItem "commit" "c1" (.other "commit") ["run:s1"]),
  ("4", workItem "commit" "c2" (.other "commit") ["run:s2"]), ("5", workItem "next" "d" (.other "query") [])]

/-- The first commit is completed before the second work item that is to be committed. -/
def committed : List SystemMove :=
  [submit] ++ turn 0 44 ++ [arrives "worker1" "session1", claims "attempt1" "worker1" "session1",
    arrives "worker2" "session2", claims "attempt2" "worker2" "session2",
    report "attempt1" "worker1" "session1" (second 3)] ++ turn 1 54 ++
  [claims "attempt3" "worker1" "session1", report "attempt3" "worker1" "session1" (second 4)] ++ turn 2 42 ++
  [report "attempt2" "worker2" "session2" (second 5)] ++ turn 3 91

/-- The state after the three reports. -/
def afterCommit : World := (System.after (runtime committing commits) committed).state

end Sample

end GoEtl.Controller
