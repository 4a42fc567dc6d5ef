import GoEtl.Controller.Recording

/-!
# Recording the output of a work item

`RecordCompletedWorkItemOutput` derives the plan of the run, and if with this output all work items of the step
have theirs, it records the output of the step. What it decides on is what a derived plan shows of the step's
members: **`outputsReady_members`** (all of them have completed) and **`outputsReady_of_done`** (if all of
them have, the outputs are there). With it the output of the step is not pending any more
(**`recordCompletedWorkItemOutput_records`**).
-/

namespace GoEtl.Controller

open Library Persistence

variable {rt : Runtime} {u : Prop} {p : Pending} {w t : World} {runId : String} {plan : DependencyPlan}

/-! ### When the outputs of a step are there -/

variable {m : WorkflowDependencyWorkItemRecord}

section Ready

variable {rows : StepRows} {seen : Observations} {c : String} {f : DependencyMembership → DependencyMembership}

theorem dependencyStepOutputsReady_iff {workItems : List DependencyMembership} :
    dependencyStepOutputsReady workItems = true ↔
      workItems ≠ [] ∧ ∀ m ∈ workItems, m.state.isSuccess = true ∧ m.outputJson ≠ "" := by
  simp [dependencyStepOutputsReady]

/-- The outputs of a step are there only if its other members have completed. -/
theorem outputsReady_members
    (h : dependencyStepOutputsReady ((rows.derive runId none seen).mapWorkItem c f).workItems = true)
    (hm : m ∈ rows.memberships) :
    m.workItemId = c ∨ ShowsCompleted seen m.workItemId := by
  rw [dependencyStepOutputsReady_iff, DependencyStep.mapWorkItem, StepRows.derive_workItems, StepRows.workItems_eq] at h
  by_cases hc : m.workItemId = c
  · exact .inl hc
  · have hshown := (h.2 _ (List.mem_map_of_mem (List.mem_map_of_mem hm))).1
    rw [StepRows.shown_workItemId, if_neg hc] at hshown
    exact .inr (StepRows.shown_success.1 hshown)

/-- What is shown of a completed member has its output, as long as the step has none. -/
theorem StepRows.shown_output (hfact : rows.fact = none) (houtput : ∀ t ∈ seen.terminal, t.terminalState = .completed →
    t.outputJson ≠ "") (hm : ShowsCompleted seen m.workItemId) :
    (rows.shown runId seen m).outputJson ≠ "" := by
  obtain ⟨t, ht, hstate⟩ := hm
  have hmem := (terminalOf_mem ht).1
  simp only [StepRows.shown, hfact, Option.isSome_none, Bool.false_eq_true, if_false, deriveDependencyMembership, ht,
    terminalMembership, hstate]
  exact houtput t hmem hstate

/-- With all members completed and no output of the step, the outputs are there. -/
theorem outputsReady_of_done (hne : rows.memberships ≠ []) (hfact : rows.fact = none)
    (houtput : ∀ t ∈ seen.terminal, t.terminalState = .completed → t.outputJson ≠ "")
    (hdone : ∀ m ∈ rows.memberships, m.workItemId = c ∨ ShowsCompleted seen m.workItemId)
    (hf : ∀ m, (f m).state.isSuccess = true ∧ (f m).outputJson ≠ "") :
    dependencyStepOutputsReady ((rows.derive runId none seen).mapWorkItem c f).workItems = true := by
  rw [dependencyStepOutputsReady_iff, DependencyStep.mapWorkItem, StepRows.derive_workItems, StepRows.workItems_eq]
  refine ⟨by simpa using hne, ?_⟩
  simp only [List.forall_mem_map, StepRows.shown_workItemId]
  intro m hm
  split
  · exact hf _
  · rename_i hc
    have hshows := (hdone m hm).resolve_left hc
    exact ⟨StepRows.shown_success.2 hshows, StepRows.shown_output hfact houtput hshows⟩

end Ready

/-! ### The step of a completed work item -/

variable {s : WorkflowDependencyStepRecord}

/-- A work item is a member of its own step only. -/
theorem Shape.step_of_item (h : Shape rt u w) (hs : s ∈ w.db.dependencySteps)
    {x : WorkItemRecord} (hx : x ∈ w.db.workItems) (hof : ItemOf rt s x)
    (hm : m ∈ w.db.dependencyWorkItems) (hid : m.workItemId = x.id) : MemberOf s m := by
  obtain ⟨s', hs', hofm, y, hy, hyid, hofy, _⟩ := h.member m hm
  obtain rfl := item_eq hy hx (hyid.trans hid)
  exact hof.step_eq hofy hs hs' ▸ hofm

/-- If the work items of a step become members together and all members have completed, so have all work items. -/
theorem Settled.items_completed (h : Settled rt u p w) (hqueued : p.queued = ∅) (hu : u)
    (hs : s ∈ w.db.dependencySteps) (hmember : HasMember w.db s)
    (hdone : MembersDone w.db s) (hmarked : ¬ Marked w.db s.runId rt) {x : WorkItemRecord} (hx : x ∈ w.db.workItems)
    (hof : ItemOf rt s x) : IsCompleted w.db x.id := by
  rcases h.together hu s hs hmember x hx hof with ⟨m, hm, _, hid⟩ | hin | hmarked'
  · rw [← hid]
    exact hdone m hm (h.step_of_item hs hx hof hm hid)
  · rw [hqueued] at hin
    cases hin
  · exact absurd hmarked' hmarked

/-- The output of the step is not pending any more. -/
theorem Settled.unpublish (h : Settled rt u p w) (hs : s ∈ w.db.dependencySteps)
    (hpublish : ∀ a ∈ p.publish, a = (s.runId, s.stepIndex))
    (hdone : HasMember w.db s → MembersDone w.db s → HasFact w.db s.runId s.stepIndex ∨ Dead w.db s.runId rt) :
    Settled rt u { p with publish := ∅ } w :=
  { h with
    published := fun s' hs' hm hd _ => by
      by_cases hin : (s'.runId, s'.stepIndex) ∈ p.publish
      · have heq := hpublish _ hin
        simp only [Prod.mk.injEq] at heq
        obtain rfl := step_eq hs' hs heq.1 heq.2
        exact hdone hm hd
      · exact h.published s' hs' hm hd hin }

/-! ### Recording -/

/-- **What recording the output of a work item needs**: the work item has completed, no memberships are pending, and
of outputs and stages only what its own step and stage need. -/
structure Reported (rt : Runtime) (p : Pending) (w : World) (runId c : String) : Prop where
  completed : IsCompleted w.db c
  queued : p.queued = ∅
  follow : ∀ m ∈ w.db.dependencyWorkItems, m.workItemId = c → (m.runId, m.stageIndex) ∈ p.follow
  publish : ∀ a ∈ p.publish, ∃ m ∈ w.db.dependencyWorkItems, m.workItemId = c ∧ a = (m.runId, m.stepIndex)
  plan : HasPlan w.db runId

theorem Reported.interference {c : String} (h : Reported rt p w runId c) (ht : Interference w t) :
    Reported rt p t runId c where
  completed := by
    rw [IsCompleted, ht.worked.completed]
    exact h.completed
  queued := h.queued
  follow := by
    rw [ht.worked.members]
    exact h.follow
  publish := by
    rw [ht.worked.members]
    exact h.publish
  plan := h.plan.interference ht

variable {hash : String}

section Record

variable {c : String} {s : WorkflowDependencyStepRecord} {m : WorkflowDependencyWorkItemRecord} {step : DependencyStep}

theorem stepWithOutput_index {changed : DependencyStep} {output : String}
    (h : stepWithOutput rt step c output hash = .ok changed) :
    changed.stageIndex = step.stageIndex ∧ changed.stepIndex = step.stepIndex := by
  unfold stepWithOutput at h
  simp only at h
  split at h
  · obtain ⟨_, _, h⟩ := except_bind_ok.1 h
    obtain ⟨_, _, h⟩ := except_bind_ok.1 h
    cases h
    exact ⟨rfl, rfl⟩
  · cases h
    exact ⟨rfl, rfl⟩

theorem findDependencyStep_stepIndex {k i : ℤ} (h : findDependencyStep plan k i = some step) : step.stepIndex = i := by
  simpa using List.find?_some h

/-- The step and the member that a derived plan shows of a work item that was reported. -/
theorem Reported.publish_eq (hc : Reported rt p w runId c) (h : Shape rt u w) (hs : s ∈ w.db.dependencySteps)
    (hm : m ∈ w.db.dependencyWorkItems) (hof : MemberOf s m) (hid : m.workItemId = c) :
    ∀ a ∈ p.publish, a = (s.runId, s.stepIndex) := by
  intro a ha
  obtain ⟨m', hm', hid', rfl⟩ := hc.publish a ha
  obtain ⟨s', hs', hofm, x, hx, hxid, hofx, _⟩ := h.member m hm
  obtain rfl := step_eq hs hs' (hof.1.symm.trans hofm.1) (hof.2.2.symm.trans hofm.2.2)
  obtain ⟨hrun, _, hindex⟩ := h.step_of_item hs hx hofx hm' (hid'.trans (hid.symm.trans hxid.symm))
  rw [hrun, hindex]

/-- When the outputs of the step are there, its output may be recorded. -/
theorem Reported.publishable (hc : Reported rt p w runId c) (h : Settled rt u p w)
    (hd : Derived w.db runId rt (some plan)) {f : DependencyMembership → DependencyMembership}
    (hstep : step ∈ plan.steps) (hs : s ∈ w.db.dependencySteps) (hrun : s.runId = runId)
    (hindex : step.stepIndex = s.stepIndex) (hm : m ∈ w.db.dependencyWorkItems) (hof : MemberOf s m)
    (hid : m.workItemId = c) (hready : dependencyStepOutputsReady (step.mapWorkItem c f).workItems = true) :
    Publishable rt u p w s where
  step := hs
  may := .inl ⟨s, hs, rfl, rfl, .inr ⟨m, hm, hof⟩⟩
  follow := by
    have hfollow := hc.follow m hm hid
    rw [hof.1, hof.2.1] at hfollow
    exact .inr (.inr hfollow)
  done hu := by
    by_cases hmarked : Marked w.db runId rt
    · exact .inr (.inl (hrun.symm ▸ hmarked))
    · obtain ⟨s', hs', hrun', seen, hseen, rfl⟩ := hd.exists_row_unmarked h.toShape hmarked hstep
      obtain rfl := step_eq hs hs' (hrun.trans hrun'.symm) (hindex.symm.trans StepRows.derive_index.2.1)
      have hdone : MembersDone w.db s := fun m' hm' hof' => by
        have hmem := mem_rowsOfStep_memberships.2 ⟨hm', hof'⟩
        rw [hrun] at hmem
        rcases outputsReady_members hready hmem with heq | hshows
        · exact heq ▸ hc.completed
        · exact isCompleted_of_shows hseen hshows
      exact .inr (.inr fun x hx hofx =>
        h.items_completed hc.queued hu hs ⟨m, hm, hof⟩ hdone (hrun.symm ▸ hmarked) hx hofx)

/-- When they are not there, it does not have to be. -/
theorem Shape.published_of_not_ready (h : Shape rt u w) (hd : Derived w.db runId rt (some plan))
    {f : DependencyMembership → DependencyMembership} (hf : ∀ m, (f m).state.isSuccess = true ∧ (f m).outputJson ≠ "")
    (hstep : step ∈ plan.steps) (hs : s ∈ w.db.dependencySteps) (hrun : s.runId = runId)
    (hindex : step.stepIndex = s.stepIndex)
    (hready : ¬ dependencyStepOutputsReady (step.mapWorkItem c f).workItems = true) (hmember : HasMember w.db s)
    (hdone : MembersDone w.db s) : HasFact w.db s.runId s.stepIndex ∨ Dead w.db s.runId rt := by
  by_cases hmarked : Marked w.db runId rt
  · exact .inr (.inl (hrun.symm ▸ hmarked))
  · obtain ⟨s', hs', hrun', seen, hseen, rfl⟩ := hd.exists_row_unmarked h hmarked hstep
    obtain rfl := step_eq hs hs' (hrun.trans hrun'.symm) (hindex.symm.trans StepRows.derive_index.2.1)
    subst hrun
    by_contra hnot
    push Not at hnot
    have hfact : (rowsOfStep w.db s.runId s).fact = none := by
      rw [← Option.not_isSome_iff_eq_none, rowsOfStep_fact]
      exact hnot.1
    refine hready (outputsReady_of_done ?_ hfact hseen.output (fun m hm => ?_) hf)
    · obtain ⟨m, hm, hof⟩ := hmember
      exact List.ne_nil_of_mem (mem_rowsOfStep_memberships.2 ⟨hm, hof⟩)
    · obtain ⟨hm, hof⟩ := mem_rowsOfStep_memberships.1 hm
      exact .inr ((showsCompleted_iff h hseen hm hof.1).2 (hdone m hm hof))

theorem storeOutput_records (hrt : rt.Lawful) (h : Settled rt u p w) (hc : Reported rt p w runId c)
    (hd : Derived w.db runId rt (some plan)) (hstep : step ∈ plan.steps) (hs : s ∈ w.db.dependencySteps)
    (hrun : s.runId = runId) (hindex : step.stepIndex = s.stepIndex) (hm : m ∈ w.db.dependencyWorkItems)
    (hof : MemberOf s m) (hid : m.workItemId = c) {output : String} (houtput : output ≠ "") :
    Records rt u (storeOutput rt runId plan step c output hash) (fun _ t => Settled rt u { p with publish := ∅ } t)
      (fun _ t => Settled rt u p t) w := by
  have hpublish := hc.publish_eq h.toShape hs hm hof hid
  refine Records.bind (Q := fun changed t => t = w ∧ stepWithOutput rt step c output hash = .ok changed)
    (E := fun _ t => t = w) (Prog.Safe.ofExcept (fun _ hchanged => ⟨rfl, hchanged⟩) fun _ _ => rfl) ?_ ?_
  · rintro _ _ _ rfl
    exact h
  rintro changed w - ⟨rfl, hchanged⟩
  refine Records.bind (Q := fun _ t => Settled rt u { p with publish := ∅ } t) (E := fun _ t => Settled rt u p t) ?_
    (fun _ _ _ => id) fun _ t _ ht => (setWorkflowDependencyState_records hrt ht).mono (fun _ _ ht => ht.1) fun _ _ ht =>
      ht.mono ⟨subset_rfl, subset_rfl, Set.empty_subset _, subset_rfl, subset_rfl⟩
  unfold upsertAggregate
  split
  · rename_i hready
    -- The step that is recorded is the changed one, wherever the plan has it.
    have hshown : ((findDependencyStep (pruneDependencyOutputsIfTerminal (plan.withStep changed)) step.stageIndex
        step.stepIndex).getD changed).stepIndex = s.stepIndex := by
      cases hfind : findDependencyStep (pruneDependencyOutputsIfTerminal (plan.withStep changed)) step.stageIndex
          step.stepIndex with
      | none => exact (stepWithOutput_index hchanged).2.trans hindex
      | some found => exact (findDependencyStep_stepIndex hfind).trans hindex
    have hpublishable := hc.publishable h hd hstep hs hrun hindex hm hof hid hready
    rw [← hrun]
    refine (upsertStepOutputFact_records h hpublishable hshown).framed.mono ?_ fun _ _ ht => ht.1
    rintro _ t ⟨⟨ht, hpublishes⟩, hframe⟩
    exact ht.unpublish (hframe.steps ▸ hs) hpublish fun _ _ => .inl hpublishes.fact
  · rename_i hready
    refine h.unpublish hs hpublish fun hmember hdone => ?_
    exact h.published_of_not_ready hd (fun _ => ⟨rfl, houtput⟩) hstep hs hrun hindex hready hmember hdone

end Record

theorem canonicalCompletedOutput_ne (hrt : rt.Lawful) {outputJson sha canonical : String}
    (h : canonicalCompletedOutput rt outputJson sha = .ok (canonical, hash)) : canonical ≠ "" := by
  obtain ⟨_, _, h⟩ := except_bind_ok.1 h
  obtain ⟨_, _, h⟩ := except_bind_ok.1 h
  obtain ⟨⟨text, hash'⟩, houtput, h⟩ := except_bind_ok.1 h
  obtain ⟨_, _, h⟩ := except_bind_ok.1 h
  have hne := hrt.output _ _ _ houtput
  split at h
  · cases h
    exact hne
  · obtain ⟨_, _, h⟩ := except_bind_ok.1 h
    obtain ⟨_, _, h⟩ := except_bind_ok.1 h
    cases h
    exact hne

/-- **Recording the output of a completed work item**: the output of its step is not pending any more. -/
theorem recordCompletedWorkItemOutput_records (hrt : rt.Lawful) (h : Settled rt u p w) {c : String}
    (hc : Reported rt p w runId c) {outputJson sha : String} :
    Records rt u (recordCompletedWorkItemOutput rt runId c outputJson sha)
      (fun _ t => Settled rt u { p with publish := ∅ } t) (fun _ t => Settled rt u p t) w := by
  refine Records.bind (Q := fun _ t => t = w) (E := fun _ t => t = w)
    (Prog.Safe.ofExcept (fun _ _ => rfl) fun _ _ => rfl) ?_ ?_
  · rintro _ _ _ rfl
    exact h
  rintro _ w - rfl
  refine Records.bind (Q := fun output t => t = w ∧ canonicalCompletedOutput rt outputJson sha = .ok output)
    (E := fun _ t => t = w) (Prog.Safe.ofExcept (fun _ houtput => ⟨rfl, houtput⟩) fun _ _ => rfl) ?_ ?_
  · rintro _ _ _ rfl
    exact h
  rintro ⟨canonical, hash⟩ w - ⟨rfl, houtput⟩
  refine Records.after_read (getWorkflowDependencyState_reads h.rooted) (fun _ _ => h.interference) ?_
  rintro (_ | plan) t ht hd
  · exact absurd (hc.plan.interference ht) hd
  replace h := h.interference ht
  replace hc := hc.interference ht
  simp only
  split
  · exact h
  · rename_i step membership hfind
    obtain ⟨s, hs, hrun, _, hindex, m, hm, hof, hid⟩ := hd.member_of_find hfind
    obtain ⟨hstep, hmem, hmid⟩ := findDependencyWorkItem_mem hfind
    have hpublish := hc.publish_eq h.toShape hs hm hof hid
    split
    · -- The work item has completed, so only a stored plan can show it as failed.
      rename_i hfailed
      refine h.unpublish hs hpublish fun _ _ => .inr (.inl ?_)
      by_contra hmarked
      rw [hrun] at hmarked
      obtain ⟨s', hs', rfl, seen, hseen, rfl⟩ := hd.exists_row_unmarked h.toShape hmarked hstep
      rw [StepRows.derive_workItems, StepRows.workItems_eq] at hmem
      obtain ⟨r, hr, rfl⟩ := List.mem_map.1 hmem
      rw [StepRows.shown_workItemId] at hmid
      have hisFailed := isFailed_of_shows hseen (StepRows.shown_failed.1 hfailed)
      exact h.outcome c ⟨hc.completed, hmid ▸ hisFailed⟩
    · split
      · rename_i hshown
        refine h.unpublish hs hpublish fun _ _ => ?_
        obtain ⟨s', hs', hrun', _, hindex', hfact⟩ := hd.step_row h.toShape hstep
        obtain rfl := step_eq hs hs' (hrun.trans hrun'.symm) (hindex.symm.trans hindex')
        exact (hfact (.inr hshown.2.2)).imp_right fun hmarked => .inl (hrun.symm ▸ hmarked)
      · exact storeOutput_records hrt h hc hd hstep hs hrun hindex hm hof hid (canonicalCompletedOutput_ne hrt houtput)

end GoEtl.Controller
