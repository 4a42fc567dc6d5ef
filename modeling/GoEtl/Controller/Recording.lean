import GoEtl.Controller.Learned

/-!
# Recording what happened

The programs that record outputs, memberships and failures keep runs settled, with workers going on
between their calls. What they leave as it is, beside the rows they write, is a `Frame`: the work items,
the steps and the outcomes of attempts. `Records` is the specification of such a program, and
**`Records.bind`** passes the frame on to what follows it.
-/

namespace GoEtl.Controller

open Library Persistence

variable {rt : Runtime} {u : Prop} {p : Pending} {w t : World} {runId : String} {plan : DependencyPlan}
variable {α β : Type} {G : World → World → Prop} {Q : α → World → Prop} {E : String → World → Prop}

/-! ### Calls -/

/-- One transaction: what it does if it is committed; otherwise nothing changes. -/
theorem transaction_safe {m : Input → StoreTx α} {E : StoreError → World → Prop} (hG : ∀ t, G t t)
    (hok : ∀ i t, Interference w t → ∀ a db', m i t.db = .ok (a, db') → G t { t with db := db' } ∧ Q a { t with db := db' })
    (herror : ∀ e t, Interference w t → E e t) : (transaction m).Safe Interference G Q E w := by
  intro i t ht
  cases hm : m i t.db with
  | ok result =>
    obtain ⟨a, db'⟩ := result
    have hcommit : (m i).commit t.db = db' := by simp [Tx.commit, hm]
    simp only [hcommit, hm]
    exact hok i t ht a db' hm
  | error e =>
    have hcommit : (m i).commit t.db = t.db := by simp [Tx.commit, hm]
    simp only [hcommit, hm]
    exact ⟨hG t, herror _ t ht⟩

/-- One transaction of a program, with its error as a text. -/
theorem call_safe {m : Input → StoreTx α} (hG : ∀ t, G t t)
    (hok : ∀ i t, Interference w t → ∀ a db', m i t.db = .ok (a, db') → G t { t with db := db' } ∧ Q a { t with db := db' })
    (herror : ∀ e t, Interference w t → E e t) : (call rt m).Safe Interference G Q E w :=
  Prog.Safe.mapError (transaction_safe hG hok fun _ t => herror _ t)

variable {q : Ctl α}

theorem withContext_safe {context : String} (h : q.Safe Interference G Q (fun _ t => E "" t) w)
    (hE : ∀ e t, E "" t → E e t) : (withContext context q).Safe Interference G Q E w :=
  Prog.Safe.mapError (h.mono (fun _ _ => id) fun _ t => hE _ t)

/-! ### Frames -/

/-- What recording leaves as it is. Members, outputs and marks may be added. -/
structure Frame (rt : Runtime) (w t : World) : Prop where
  activations : t.activations = w.activations
  steps : t.db.dependencySteps = w.db.dependencySteps
  items : t.db.workItems = w.db.workItems
  completed : t.db.completedWork = w.db.completedWork
  failed : t.db.failedWork = w.db.failedWork
  members : ∀ m ∈ w.db.dependencyWorkItems, m ∈ t.db.dependencyWorkItems
  facts : ∀ R i, HasFact w.db R i → HasFact t.db R i
  marked : ∀ R, Marked w.db R rt → Marked t.db R rt
  /-- The row of a run changes only when it is marked. -/
  runs : ∀ r ∈ w.db.workflowInstances, r ∈ t.db.workflowInstances ∨ Marked t.db r.id rt

theorem Frame.refl (w : World) : Frame rt w w :=
  ⟨rfl, rfl, rfl, rfl, rfl, fun _ => id, fun _ _ => id, fun _ => id, fun _ => .inl⟩

theorem Frame.trans (w₁ w₂ w₃ : World) (h : Frame rt w₁ w₂) (h' : Frame rt w₂ w₃) : Frame rt w₁ w₃ where
  activations := h'.activations.trans h.activations
  steps := h'.steps.trans h.steps
  items := h'.items.trans h.items
  completed := h'.completed.trans h.completed
  failed := h'.failed.trans h.failed
  members m hm := h'.members m (h.members m hm)
  facts R i hf := h'.facts R i (h.facts R i hf)
  marked R hm := h'.marked R (h.marked R hm)
  runs r hr := (h.runs r hr).elim (h'.runs r) fun hm => .inr (h'.marked _ hm)

theorem Interference.frame (h : Interference w t) : Frame rt w t where
  activations := h.activations
  steps := h.worked.steps
  items := h.worked.items
  completed := h.worked.completed
  failed := h.worked.failed
  members m hm := by rwa [h.worked.members]
  facts R i hf := by rwa [HasFact, h.worked.facts]
  marked R hm := by rwa [Marked, h.worked.instances]
  runs r hr := .inl (by rwa [h.worked.instances])

variable {s : WorkflowDependencyStepRecord} {k : ℤ}

section Frame

variable (hf : Frame rt w t)

include hf

theorem Frame.isCompleted {id : String} : IsCompleted t.db id ↔ IsCompleted w.db id := by
  rw [IsCompleted, hf.completed, IsCompleted]

theorem Frame.isMember {x : WorkItemRecord} (h : IsMember w.db x) : IsMember t.db x := by
  obtain ⟨m, hm, hof⟩ := h
  exact ⟨m, hf.members m hm, hof⟩

theorem Frame.touched (h : Touched w.db runId k) : Touched t.db runId k := by
  obtain ⟨s, hs, hrun, hk, hrecorded⟩ := h
  refine ⟨s, by rwa [hf.steps], hrun, hk, hrecorded.imp (hf.facts _ _) fun ⟨m, hm, hof⟩ => ?_⟩
  exact ⟨m, hf.members m hm, hof⟩

theorem Frame.mayTouch (h : MayTouch rt p w s) : MayTouch rt p t s := by
  refine h.imp hf.touched (Or.imp (hf.marked _) fun ⟨hstarting, hbefore⟩ => ⟨hstarting, fun r hr hrun hk => ?_⟩)
  exact hf.facts _ _ (hbefore r (by rwa [← hf.steps]) hrun hk)

end Frame

/-! ### Programs that record -/

/-- A step that records something. -/
def RecordStep (rt : Runtime) (u : Prop) (w t : World) : Prop := HandlerStep rt u w t ∧ Frame rt w t

theorem RecordStep.refl (w : World) : RecordStep rt u w w := ⟨.refl w, .refl w⟩

/-- A program that records, and what holds when it ends. -/
abbrev Records (rt : Runtime) (u : Prop) (q : Ctl α) (Q : α → World → Prop) (E : String → World → Prop) (w : World) :
    Prop :=
  q.Safe Interference (RecordStep rt u) Q E w

/-- A recording program leaves a frame. -/
theorem Records.framed (h : Records rt u q Q E w) :
    Records rt u q (fun a t => Q a t ∧ Frame rt w t) (fun e t => E e t ∧ Frame rt w t) w :=
  Prog.Safe.reaches Frame.refl Frame.trans (fun _ _ ht => Interference.frame ht) (fun _ _ ht => ht.2) h

/-- **Sequences of recording programs**: the second one starts in the frame of the first. -/
theorem Records.bind {f : α → Ctl β} {Q' : β → World → Prop} {E' : String → World → Prop} (hq : Records rt u q Q E w)
    (hE : ∀ e t, Frame rt w t → E e t → E' e t) (hf : ∀ a t, Frame rt w t → Q a t → Records rt u (f a) Q' E' t)
    : Records rt u (q >>= f) Q' E' w :=
  Prog.Safe.bind (hq.framed.mono (fun a t h => hf a t h.2 h.1) fun e t h => hE e t h.2 h.1)

/-- Reading before recording. -/
theorem Records.after_read {f : α → Ctl β} {Q' : β → World → Prop} (hq : Reads q Q w)
    (hE : ∀ e t, Interference w t → E e t) (hf : ∀ a t, Interference w t → Q a t → Records rt u (f a) Q' E t)
    : Records rt u (q >>= f) Q' E w :=
  Reads.bind hq RecordStep.refl hE hf

/-- What everything keeps but a report of a failure: no work fails, and work items and marks stay. -/
structure Keeps (rt : Runtime) (w t : World) : Prop where
  items : ∀ x ∈ w.db.workItems, x ∈ t.db.workItems
  failed : t.db.failedWork = w.db.failedWork
  marked : ∀ R, Marked w.db R rt → Marked t.db R rt

theorem Keeps.refl (w : World) : Keeps rt w w := ⟨fun _ => id, rfl, fun _ => id⟩

theorem Keeps.trans (w₁ w₂ w₃ : World) (h : Keeps rt w₁ w₂) (h' : Keeps rt w₂ w₃) : Keeps rt w₁ w₃ where
  items x hx := h'.items x (h.items x hx)
  failed := h'.failed.trans h.failed
  marked R hm := h'.marked R (h.marked R hm)

theorem Frame.keeps (h : Frame rt w t) : Keeps rt w t := ⟨fun _ hx => h.items ▸ hx, h.failed, h.marked⟩

/-- A step of a handler that reports no failure. -/
def AdvanceStep (rt : Runtime) (u : Prop) (w t : World) : Prop := HandlerStep rt u w t ∧ Keeps rt w t

theorem AdvanceStep.refl (w : World) : AdvanceStep rt u w w := ⟨.refl w, .refl w⟩

/-- A recording program as a part of a handler. -/
theorem Records.runs (h : Records rt u q Q E w) :
    q.Safe Interference (AdvanceStep rt u) (fun a t => Q a t ∧ Frame rt w t) (fun e t => E e t ∧ Frame rt w t) w :=
  h.framed.weaken fun _ _ ht => ⟨ht.1, ht.2.keeps⟩

/-! ### Marking a run -/

theorem frame_mark {json : String} {table : Table Schema.workflowInstances}
    (hupdate : w.db.workflowInstances.update (·.id == runId) ({ · with submissionContextJson := json }) = .ok table)
    (hplan : legacyWorkflowDependencyPlan rt json = some plan) (hfailed : plan.state = .failed) :
    Frame rt w { w with db := { w.db with workflowInstances := table } } where
  activations := rfl
  steps := rfl
  items := rfl
  completed := rfl
  failed := rfl
  members _ := id
  facts _ _ := id
  marked _ := marked_update_mono hupdate hplan hfailed
  runs r hr := by
    by_cases hid : r.id = runId
    · exact .inr (hid ▸ marked_of_update hupdate hplan hfailed ⟨r, hr, hid⟩)
    · exact .inl ((Table.mem_update hupdate).2 (.inr ⟨hr, by simpa using hid⟩))

/-- A failed plan that is stored marks the run. -/
theorem storeFailedPlan_records (hrt : rt.Lawful) (h : Settled rt u p w)
    (hvalid : validateDependencyPlan plan = .ok ()) (hfailed : plan.state = .failed) :
    Records rt u (storeFailedPlan rt runId plan)
      (fun _ t => Settled rt u p t ∧ Marked t.db runId rt ∧ t.db.stepOutputFacts = w.db.stepOutputFacts)
      (fun _ t => Settled rt u p t) w := by
  refine Records.after_read (query_reads (Q := fun found t => found = getWorkflowRun t.db runId) fun _ _ => rfl)
    (fun _ _ => h.interference) ?_
  rintro _ t₁ h₁ rfl
  have hsettled := h.interference h₁
  split
  · exact hsettled
  · rename_i run hrun
    obtain ⟨hrun, hid⟩ := getWorkflowRun_eq_some.1 hrun
    refine Records.bind (Q := fun _ t => t = t₁) (E := fun _ t => t = t₁)
      (Prog.Safe.ofExcept (fun _ _ => rfl) fun _ _ => rfl) ?_ ?_
    · rintro _ _ _ rfl
      exact hsettled
    rintro _ t₁ - rfl
    refine Records.bind (Q := fun text t => t = t₁ ∧ rt.encodeDependencyState run.submissionContextJson plan = .ok text)
      (E := fun _ t => t = t₁) (Prog.Safe.ofExcept (fun text htext => ⟨rfl, wrapError_ok.1 htext⟩) fun _ _ => rfl) ?_ ?_
    · rintro _ _ _ rfl
      exact hsettled
    rintro text _ - ⟨rfl, htext⟩
    refine withContext_safe (call_safe RecordStep.refl ?_ fun _ _ => hsettled.interference) fun _ _ => id
    intro i t ht _ db' hwrite
    obtain ⟨table, hupdate, rfl⟩ := updateWorkflowRunSubmissionContext_ok hwrite
    have hplan : legacyWorkflowDependencyPlan rt text = some plan := by
      simp only [legacyWorkflowDependencyPlan, hrt.dependencyState _ _ _ htext, hvalid]
    have hrun' : ∃ r ∈ t.db.workflowInstances, r.id = runId := ⟨run, by rwa [ht.worked.instances], hid⟩
    exact ⟨⟨.mark hupdate hplan hfailed, frame_mark hupdate hplan hfailed⟩,
      (hsettled.interference ht).mark hupdate hplan hfailed, marked_of_update hupdate hplan hfailed hrun',
      ht.worked.facts.trans h₁.worked.facts⟩

/-- Setting a plan changes nothing unless it has failed, and then it marks the run. -/
theorem setWorkflowDependencyState_records (hrt : rt.Lawful) (h : Settled rt u p w) :
    Records rt u (setWorkflowDependencyState rt runId plan)
      (fun _ t => Settled rt u p t ∧ (plan.state = .failed → Marked t.db runId rt) ∧
        (plan.state ≠ .failed → Interference w t) ∧ t.db.stepOutputFacts = w.db.stepOutputFacts)
      (fun _ t => Settled rt u p t) w := by
  refine Records.bind (Q := fun _ t => t = w ∧ validateDependencyPlan plan = .ok ()) (E := fun _ t => t = w)
    (Prog.Safe.ofExcept (fun _ hvalid => ⟨rfl, hvalid⟩) fun _ _ => rfl) ?_ ?_
  · rintro _ _ _ rfl
    exact h
  rintro _ _ - ⟨rfl, hvalid⟩
  split
  · rename_i hfailed
    refine (storeFailedPlan_records hrt h hvalid hfailed).mono (fun _ t ht => ⟨ht.1, fun _ => ht.2.1, ?_, ht.2.2⟩)
      fun _ _ => id
    exact fun hnot => absurd hfailed hnot
  all_goals
    rename_i hstate
    exact ⟨h, fun hfailed => by simp [hstate] at hfailed, fun _ => .refl _, rfl⟩

/-! ### Recording an output -/

/-- **The output of a step may be recorded**: its stage is not one that nothing is recorded of, what follows the
stage is still to be seen to, and the step's work items have completed. -/
structure Publishable (rt : Runtime) (u : Prop) (p : Pending) (w : World) (s : WorkflowDependencyStepRecord) :
    Prop where
  step : s ∈ w.db.dependencySteps
  may : MayTouch rt p w s
  follow : HasFact w.db s.runId s.stepIndex ∨ Marked w.db s.runId rt ∨ (s.runId, s.stageIndex) ∈ p.follow
  done : u → HasFact w.db s.runId s.stepIndex ∨ Marked w.db s.runId rt ∨
    ∀ x ∈ w.db.workItems, ItemOf rt s x → IsCompleted w.db x.id

theorem Publishable.frame (h : Publishable rt u p w s) (hf : Frame rt w t) :
    Publishable rt u p t s where
  step := by
    rw [hf.steps]
    exact h.step
  may := hf.mayTouch h.may
  follow := h.follow.imp (hf.facts _ _) (Or.imp_left (hf.marked _))
  done hu := (h.done hu).imp (hf.facts _ _) (Or.imp (hf.marked _) fun hall x hx hof => by
    rw [hf.items] at hx
    exact hf.isCompleted.2 (hall x hx hof))

/-- The output of a step that has one, or of a marked run, may be recorded again. -/
theorem Publishable.again (hs : s ∈ w.db.dependencySteps)
    (h : HasFact w.db s.runId s.stepIndex ∨ Marked w.db s.runId rt) : Publishable rt u p w s where
  step := hs
  may := h.imp (fun hfact => ⟨s, hs, rfl, rfl, .inl hfact⟩) .inl
  follow := h.imp_right .inl
  done _ := h.imp_right .inl

/-- What recording the output of a step changes. -/
structure Publishes (w t : World) (s : WorkflowDependencyStepRecord) : Prop where
  fact : HasFact t.db s.runId s.stepIndex
  only : ∀ R i, HasFact t.db R i → HasFact w.db R i ∨ (R = s.runId ∧ i = s.stepIndex)
  instances : t.db.workflowInstances = w.db.workflowInstances
  members : t.db.dependencyWorkItems = w.db.dependencyWorkItems

variable {step : DependencyStep}

theorem upsertStepOutputFact_records {kind : OutputKind} (h : Settled rt u p w)
    (hs : Publishable rt u p w s) (hindex : step.stepIndex = s.stepIndex) :
    Records rt u (upsertStepOutputFact rt s.runId step kind)
      (fun _ t => Settled rt u p t ∧ Publishes w t s) (fun _ t => Settled rt u p t) w := by
  unfold upsertStepOutputFact
  split
  · exact h
  refine call_safe RecordStep.refl ?_ fun _ _ => h.interference
  intro i t ht _ db' hwrite
  obtain ⟨_, table, rfl, _, hhas⟩ := upsertWorkflowStepOutputFact_ok hwrite
  simp only [WorkflowStepOutputFactRecord.key, hindex] at hhas
  have hs := hs.frame (Interference.frame ht)
  refine ⟨⟨.upsertFact hs.step hhas hs.done, ?_⟩, ?_, (hhas _).2 (.inr rfl), fun R i hf => ?_, ht.worked.instances,
    ht.worked.members⟩
  · exact ⟨rfl, rfl, rfl, rfl, rfl, fun _ => id, fun R i hf => (hhas _).2 (.inl hf), fun _ => id, fun _ => .inl⟩
  · exact (h.interference ht).upsertFact hs.step hhas hs.may hs.follow hs.done
  · refine ((hhas (R, i)).1 hf).imp (fun hf => ?_) fun heq => ?_
    · rwa [HasFact, ← ht.worked.facts]
    · simp only [Prod.mk.injEq] at heq
      exact ⟨heq.1.symm, heq.2.symm⟩

/-! ### Recording the outputs of a plan that has ended -/

/-- The steps have the same output. -/
def SameOutput (a b : DependencyStep) : Prop :=
  a.stepIndex = b.stepIndex ∧ a.outputJsonSha256 = b.outputJsonSha256

/-- The outputs of the second plan are those of the first. -/
structure Outlines (plan plan' : DependencyPlan) : Prop where
  runId : plan'.runId = plan.runId
  steps : ∀ b ∈ plan'.steps, ∃ a ∈ plan.steps, SameOutput a b

section Outlines

variable {plan' plan'' : DependencyPlan}

theorem Outlines.refl (plan : DependencyPlan) : Outlines plan plan := ⟨rfl, fun b hb => ⟨b, hb, rfl, rfl⟩⟩

theorem Outlines.trans (h : Outlines plan plan') (h' : Outlines plan' plan'') : Outlines plan plan'' where
  runId := h'.runId.trans h.runId
  steps c hc := by
    obtain ⟨b, hb, hbc⟩ := h'.steps c hc
    obtain ⟨a, ha, hab⟩ := h.steps b hb
    exact ⟨a, ha, hab.1.trans hbc.1, hab.2.trans hbc.2⟩

theorem mem_steps_of_stage {stage : DependencyStage} (hstage : stage ∈ plan.stages) (hstep : step ∈ stage.steps)
    : step ∈ plan.steps :=
  List.mem_flatMap.2 ⟨stage, hstage, hstep⟩

theorem Outlines.mapStage {f : DependencyStage → DependencyStage}
    (h : ∀ stage ∈ plan.stages, ∀ b ∈ (f stage).steps, ∃ a ∈ plan.steps, SameOutput a b) :
    Outlines plan (plan.mapStage k f) where
  runId := rfl
  steps b hb := by
    obtain ⟨_, hmem, hb⟩ := List.mem_flatMap.1 hb
    obtain ⟨stage, hstage, rfl⟩ := List.mem_map.1 hmem
    split at hb
    · exact h stage hstage b hb
    · exact ⟨b, mem_steps_of_stage hstage hb, rfl, rfl⟩

/-- The states of a plan are no part of its outline. -/
theorem Outlines.of_stages (hrun : plan'.runId = plan.runId) (hstages : plan'.stages = plan.stages) :
    Outlines plan plan' :=
  ⟨hrun, fun b hb => ⟨b, by rwa [DependencyPlan.steps, ← hstages], rfl, rfl⟩⟩

theorem sameOutput_prune (step : DependencyStep) :
    SameOutput step (pruneStepOutputJson (pruneWorkItemOutputJson step)) := by
  unfold pruneStepOutputJson
  split <;> exact ⟨rfl, rfl⟩

theorem Outlines.prune (plan : DependencyPlan) : Outlines plan (pruneDependencyOutputsIfTerminal plan) := by
  unfold pruneDependencyOutputsIfTerminal
  split
  · exact .refl plan
  all_goals
    refine ⟨rfl, fun b hb => ?_⟩
    obtain ⟨_, hmem, hb⟩ := List.mem_flatMap.1 hb
    obtain ⟨stage, hstage, rfl⟩ := List.mem_map.1 hmem
    obtain ⟨a, ha, rfl⟩ := List.mem_map.1 hb
    exact ⟨a, mem_steps_of_stage hstage ha, sameOutput_prune a⟩

theorem Outlines.fail (k : ℤ) (stepIndex : Option ℤ) (workItemId reason : String) :
    Outlines plan (markDependencyPlanFailed plan k stepIndex workItemId reason) := by
  unfold markDependencyPlanFailed
  generalize (if Text.isBlank reason then "dependency workflow failed" else reason) = text
  refine Outlines.trans ?_ (Outlines.mapStage fun stage hstage b hb => ?_)
  · exact .of_stages rfl rfl
  simp only at hb
  split at hb
  · obtain ⟨a, ha, rfl⟩ := List.mem_map.1 hb
    refine ⟨a, mem_steps_of_stage hstage ha, ?_⟩
    split <;> exact ⟨rfl, rfl⟩
  · obtain ⟨a, ha, rfl⟩ := List.mem_map.1 hb
    exact ⟨a, mem_steps_of_stage hstage ha, rfl, rfl⟩

theorem Outlines.withStep {a b : DependencyStep} (ha : a ∈ plan.steps) (hab : SameOutput a b) :
    Outlines plan (plan.withStep b) := by
  have hchanged : Outlines plan (plan.mapStage b.stageIndex fun stage =>
      { stage.mapStep b.stepIndex fun _ => b with
        state := updateStageStateFromSteps (stage.mapStep b.stepIndex fun _ => b).steps
          (stage.mapStep b.stepIndex fun _ => b).state }) := by
    refine Outlines.mapStage fun stage hstage c hc => ?_
    obtain ⟨d, hd, rfl⟩ := List.mem_map.1 hc
    split
    · exact ⟨a, ha, hab⟩
    · exact ⟨d, mem_steps_of_stage hstage hd, rfl, rfl⟩
  unfold DependencyPlan.withStep
  simp only
  split
  · exact hchanged.trans (.of_stages rfl rfl)
  · exact hchanged

end Outlines

theorem pruneDependencyOutputsIfTerminal_state (plan : DependencyPlan) :
    (pruneDependencyOutputsIfTerminal plan).state = plan.state := by
  unfold pruneDependencyOutputsIfTerminal
  split <;> rfl

/-- The outputs of a derived plan are recorded. -/
theorem Derived.publishable (hd : Derived w.db runId rt (some plan)) (h : Shape rt u w) {plan' : DependencyPlan}
    (houtline : Outlines plan plan') (hstep : step ∈ plan'.steps) (houtput : step.outputJsonSha256 ≠ "") :
    ∃ s, s.runId = runId ∧ step.stepIndex = s.stepIndex ∧ Publishable rt u p w s := by
  obtain ⟨a, ha, hindex, hsha⟩ := houtline.steps step hstep
  obtain ⟨s, hs, rfl, _, hsi, hfact⟩ := hd.step_row h ha
  exact ⟨s, rfl, hindex.symm.trans hsi, .again hs (hfact (.inr (hsha ▸ houtput)))⟩

theorem Derived.runId_eq (hd : Derived w.db runId rt (some plan)) : plan.runId = runId := by
  obtain ⟨run, _, rfl, seen, _, hplan⟩ := hd
  rw [(reconstructPlan_ok.1 hplan).1]
  unfold DependencyPlan.withStoredFailure
  split
  · split <;> rfl
  · rfl

/-- The outputs of a plan that has ended are recorded again. -/
theorem upsertTerminalPruned_records (h : Settled rt u p w) (hrun : plan.runId = runId)
    (hsteps : ∀ step ∈ plan.steps, step.outputJsonSha256 ≠ "" →
      ∃ s, s.runId = runId ∧ step.stepIndex = s.stepIndex ∧ Publishable rt u p w s) :
    Records rt u (upsertTerminalPrunedWorkflowStepOutputFacts rt plan) (fun _ t => Settled rt u p t)
      (fun _ t => Settled rt u p t) w := by
  unfold upsertTerminalPrunedWorkflowStepOutputFacts
  split
  · exact h
  all_goals
    refine (Prog.Safe.forM (P := fun t => Settled rt u p t ∧ Frame rt w t) ?_ ⟨h, .refl w⟩).mono
      (fun _ _ ht => ht.1) fun _ _ => id
    rintro step hstep t ⟨ht, hframe⟩
    unfold upsertPrunedFact
    split
    · exact ⟨ht, hframe⟩
    · rename_i houtput
      push Not at houtput
      refine Records.after_read (query_reads (Q := fun _ _ => True) fun _ _ => trivial)
        (fun _ _ => ht.interference) fun existing t₁ h₁ _ => ?_
      obtain ⟨s, hsrun, hindex, hs⟩ := hsteps step hstep houtput.2
      have hframe₁ := hframe.trans _ _ _ (Interference.frame h₁)
      rw [hrun, ← hsrun]
      refine (upsertStepOutputFact_records (ht.interference h₁) (hs.frame hframe₁) hindex).framed.mono ?_ ?_
      · exact fun _ t' ht' => ⟨ht'.1.1, hframe₁.trans _ _ _ ht'.2⟩
      · exact fun _ t' ht' => ht'.1

/-- Storing what became of a derived plan: its outputs, and the plan itself if it has failed. -/
theorem storeUpdated_records (hrt : rt.Lawful) (h : Settled rt u p w) (hd : Derived w.db runId rt (some plan))
    {updated : DependencyPlan} (houtline : Outlines plan updated) :
    Records rt u
      (do
        upsertTerminalPrunedWorkflowStepOutputFacts rt updated
        setWorkflowDependencyState rt runId updated)
      (fun _ t => Settled rt u p t ∧ (updated.state = .failed → Marked t.db runId rt)) (fun _ t => Settled rt u p t) w := by
  have hsteps : ∀ step ∈ updated.steps, step.outputJsonSha256 ≠ "" → _ := fun step hstep =>
    hd.publishable (p := p) h.toShape houtline hstep
  refine Records.bind (upsertTerminalPruned_records h (houtline.runId.trans hd.runId_eq) hsteps) (fun _ _ _ => id) ?_
  intro _ t _ ht
  exact (setWorkflowDependencyState_records hrt ht).mono (fun _ t ht => ⟨ht.1, ht.2.1⟩) fun _ _ => id

theorem HasPlan.interference (h : HasPlan w.db runId) (ht : Interference w t) : HasPlan t.db runId := by
  rwa [HasPlan, ht.worked.instances, ht.worked.steps]

variable {reason : String}

/-- **A failed activation** marks the run. -/
theorem markWorkflowStageActivationFailed_records (hrt : rt.Lawful) (h : Settled rt u p w) :
    Records rt u (markWorkflowStageActivationFailed rt runId k reason)
      (fun _ t => Settled rt u p t ∧ (HasPlan w.db runId → Marked t.db runId rt)) (fun _ t => Settled rt u p t) w := by
  refine Records.after_read (getWorkflowDependencyState_reads h.rooted) (fun _ _ => h.interference) ?_
  rintro (_ | plan) t ht hd
  · exact ⟨h.interference ht, fun hplan => absurd (hplan.interference ht) hd⟩
  · have houtline : Outlines plan _ := (Outlines.fail k none "" reason).trans (.prune _)
    refine (storeUpdated_records hrt (h.interference ht) hd houtline).mono (fun _ t ht => ⟨ht.1, fun _ => ht.2 ?_⟩)
      fun _ _ => id
    rw [pruneDependencyOutputsIfTerminal_state]
    rfl

theorem updateForTerminal_outlines {workItemId : String} {state : WorkItemMembershipState} {updated : DependencyPlan}
    (h : updateDependencyPlanForWorkItemTerminal plan workItemId state reason = some updated) :
    Outlines plan updated := by
  unfold updateDependencyPlanForWorkItemTerminal at h
  split at h
  · cases h
  · rename_i step membership hfind
    have hstep := (findDependencyWorkItem_mem hfind).1
    split at h
    · cases h
    · split at h
      · cases h
      · split at h
        · cases h
          exact (Outlines.fail _ _ _ _).trans (.prune _)
        · cases h
          refine Outlines.trans ?_ (.prune _)
          exact Outlines.withStep hstep ⟨rfl, rfl⟩

/-- The state of a work item that ended is recorded. -/
theorem recordWorkItemTerminalState_records (hrt : rt.Lawful) (h : Settled rt u p w) {workItemId : String}
    {state : WorkItemMembershipState} :
    Records rt u (recordWorkItemTerminalState rt runId workItemId state reason) (fun _ t => Settled rt u p t)
      (fun _ t => Settled rt u p t) w := by
  refine Records.bind (Q := fun _ t => t = w) (E := fun _ t => t = w)
    (Prog.Safe.ofExcept (fun _ _ => rfl) fun _ _ => rfl) ?_ ?_
  · rintro _ _ _ rfl
    exact h
  rintro _ _ - rfl
  refine Records.after_read (getWorkflowDependencyState_reads h.rooted) (fun _ _ => h.interference) ?_
  rintro (_ | plan) t ht hd
  · exact h.interference ht
  · cases hupdate : updateDependencyPlanForWorkItemTerminal plan workItemId state reason with
    | none =>
      simp only [hupdate]
      exact h.interference ht
    | some updated =>
      simp only [hupdate]
      exact (storeUpdated_records hrt (h.interference ht) hd (updateForTerminal_outlines hupdate)).mono
        (fun _ _ ht => ht.1) fun _ _ => id

/-! ### Recording memberships -/

/-- **A work item may become a member**: it is one of the step and has not completed, and if the work items of
a step become members together the others are members or are to become so. -/
structure Enrollable (rt : Runtime) (u : Prop) (p : Pending) (w : World) (runId : String) (m : StageMembership)
    (s : WorkflowDependencyStepRecord) (x : WorkItemRecord) : Prop where
  step : s ∈ w.db.dependencySteps
  run : s.runId = runId
  stage : s.stageIndex = m.stageIndex
  index : s.stepIndex = m.stepIndex
  item : x ∈ w.db.workItems
  id : x.id = m.workItemId
  of : ItemOf rt s x
  ordinary : Ordinary rt x
  unfinished : ¬ IsCompleted w.db x.id
  may : MayTouch rt p w s
  together : u → ∀ y ∈ w.db.workItems, ItemOf rt s y →
    IsMember w.db y ∨ (y.runId, y.id) ∈ p.queued ∨ Marked w.db s.runId rt

section Enroll

variable {m : StageMembership} {s : WorkflowDependencyStepRecord} {x : WorkItemRecord}

theorem Enrollable.frame (h : Enrollable rt u p w runId m s x) (hf : Frame rt w t) : Enrollable rt u p t runId m s x where
  step := hf.steps ▸ h.step
  run := h.run
  stage := h.stage
  index := h.index
  item := hf.items ▸ h.item
  id := h.id
  of := h.of
  ordinary := h.ordinary
  unfinished := mt hf.isCompleted.1 h.unfinished
  may := hf.mayTouch h.may
  together hu y hy hof :=
    (h.together hu y (hf.items ▸ hy) hof).imp hf.isMember (Or.imp_right (hf.marked _))

/-- Once a work item is a member, the others may become members still. -/
theorem Enrollable.enroll (h : Enrollable rt u p w runId m s x) {y : WorkItemRecord} (hy : y ∈ w.db.workItems)
    (hmember : IsMember w.db y) : Enrollable rt u (p.enroll y) w runId m s x where
  step := h.step
  run := h.run
  stage := h.stage
  index := h.index
  item := h.item
  id := h.id
  of := h.of
  ordinary := h.ordinary
  unfinished := h.unfinished
  may := h.may
  together hu z hz hof := by
    by_cases hzy : z.id = y.id
    · exact .inl (item_eq hz hy hzy ▸ hmember)
    · refine (h.together hu z hz hof).imp_right (Or.imp_left fun hin => ⟨hin, fun heq => hzy ?_⟩)
      exact congrArg Prod.snd heq

theorem Pending.enroll_le (p : Pending) (x : WorkItemRecord) : p.enroll x ≤ p :=
  ⟨subset_rfl, subset_rfl, subset_rfl, Set.sdiff_subset, subset_rfl⟩

theorem recordCompiledWorkItemMembership_records (hrt : rt.Lawful) (h : Settled rt u p w)
    (hm : Enrollable rt u p w runId m s x) :
    Records rt u (recordCompiledWorkItemMembership rt runId m)
      (fun _ t => Settled rt u (p.enroll x) t ∧ IsMember t.db x ∧ HasMember t.db s ∧
        t.db.stepOutputFacts = w.db.stepOutputFacts)
      (fun _ t => Settled rt u p t) w := by
  refine Records.bind (Q := fun _ t => t = w) (E := fun _ t => t = w)
    (Prog.Safe.ofExcept (fun _ _ => rfl) fun _ _ => rfl) ?_ ?_
  · rintro _ _ _ rfl
    exact h
  rintro _ _ - rfl
  refine Records.after_read (getWorkflowDependencyState_reads h.rooted) (fun _ _ => h.interference) ?_
  rintro (_ | plan) t₁ h₁ -
  · exact h.interference h₁
  cases hfind : findDependencyStep plan m.stageIndex m.stepIndex with
  | none =>
    simp only [hfind]
    exact h.interference h₁
  | some step =>
    simp only [hfind]
    have hm₁ := hm.frame (Interference.frame h₁)
    replace h := h.interference h₁
    refine Records.bind (Q := fun _ t => t = t₁) (E := fun _ t => t = t₁)
      (Prog.Safe.ofExcept (fun _ _ => rfl) fun _ _ => rfl) ?_ ?_
    · rintro _ _ _ rfl
      exact h
    rintro _ t₁ - rfl
    refine Records.bind (Q := fun _ t => Settled rt u (p.enroll x) t ∧ IsMember t.db x ∧ HasMember t.db s ∧
      t.db.stepOutputFacts = t₁.db.stepOutputFacts) (E := fun _ t => Settled rt u p t) (call_safe RecordStep.refl ?_ fun _ _ => h.interference) (fun _ _ _ => id) ?_
    · intro i t ht _ db' hwrite
      replace h := h.interference ht
      have hm := hm₁.frame (Interference.frame ht)
      have hof : MemberOf s ⟨runId, m.stageIndex, m.stepIndex, m.workItemId, m.workItemIndex, i.now.format⟩ :=
        ⟨hm.run.symm, hm.stage.symm, hm.index.symm⟩
      obtain ⟨_, ⟨hold, rfl⟩ | ⟨table, hinsert, rfl⟩⟩ := insertWorkflowDependencyWorkItemMembership_ok hwrite
      · have hmember : IsMember t.db x := ⟨_, hold, hm.run.symm.trans hm.of.1.symm, hm.id.symm⟩
        exact ⟨.refl _, h.enroll hm.item hmember, hmember, ⟨_, hold, hof⟩, ht.worked.facts⟩
      · have hnew := (Table.mem_insert hinsert).2 (.inr rfl)
        refine ⟨⟨.insertMember hinsert, ?_⟩, ?_, ⟨_, hnew, hm.run.symm.trans hm.of.1.symm, hm.id.symm⟩, ⟨_, hnew, hof⟩,
          ht.worked.facts⟩
        · exact ⟨rfl, rfl, rfl, rfl, rfl, fun m hm => (Table.mem_insert hinsert).2 (.inl hm), fun _ _ => id, fun _ => id,
            fun _ => .inl⟩
        · exact h.insertMember hm.step hof hinsert hm.item hm.id hm.of hm.ordinary hm.unfinished hm.may hm.together
    · rintro _ t - ⟨ht, hmember, hhas, hfacts⟩
      refine (setWorkflowDependencyState_records hrt ht).framed.mono ?_ ?_
      · rintro _ t' ⟨⟨ht', _, _, hfacts'⟩, hframe⟩
        obtain ⟨m', hm', hof'⟩ := hhas
        exact ⟨ht', hframe.isMember hmember, ⟨m', hframe.members m' hm', hof'⟩,
          hfacts'.trans (hfacts.trans h₁.worked.facts)⟩
      · rintro _ t' ⟨ht', _⟩
        exact ht'.mono (p.enroll_le x)

end Enroll

/-- The memberships of these work items are not pending any more. -/
def Pending.enrollAll (p : Pending) (runId : String) (ids : Set String) : Pending :=
  { p with queued := p.queued \ {a | a.1 = runId ∧ a.2 ∈ ids} }

/-- **Recording memberships one after the other.** -/
theorem recordMemberships_records {κ : Type} (hrt : rt.Lawful) {f : κ → StageMembership} {context : String} (xs : List κ)
    (h : Settled rt u p w) (hxs : ∀ a ∈ xs, ∃ s x, Enrollable rt u p w runId (f a) s x) :
    Records rt u (xs.forM fun a => withContext context (recordCompiledWorkItemMembership rt runId (f a)))
      (fun _ t => Settled rt u (p.enrollAll runId {id | ∃ a ∈ xs, (f a).workItemId = id}) t ∧
        (∀ a ∈ xs, Touched t.db runId (f a).stageIndex) ∧ t.db.stepOutputFacts = w.db.stepOutputFacts)
      (fun _ t => Settled rt u p t) w := by
  induction xs generalizing p w with
  | nil =>
    refine ⟨h.mono ⟨subset_rfl, subset_rfl, subset_rfl, fun a ha => ⟨ha, ?_⟩, subset_rfl⟩, by simp, rfl⟩
    simp
  | cons a xs ih =>
    rw [List.forall_mem_cons] at hxs
    obtain ⟨⟨s, x, hm⟩, hrest⟩ := hxs
    refine Records.bind (withContext_safe (recordCompiledWorkItemMembership_records hrt h hm) fun _ _ => id)
      (fun _ _ _ => id) ?_
    rintro _ t hframe ⟨ht, hmember, hhas, hfacts⟩
    have htouched : Touched t.db runId (f a).stageIndex := by
      rw [← hm.stage]
      exact ⟨s, hframe.steps ▸ hm.step, hm.run, rfl, .inr hhas⟩
    have hx : x ∈ t.db.workItems := hframe.items ▸ hm.item
    refine (ih ht fun b hb => ?_).framed.mono ?_ ?_
    · obtain ⟨s', x', hm'⟩ := hrest b hb
      exact ⟨s', x', (hm'.frame hframe).enroll hx hmember⟩
    · rintro _ t' ⟨⟨ht', htouched', hfacts'⟩, hframe'⟩
      refine ⟨ht'.mono ⟨subset_rfl, subset_rfl, subset_rfl, ?_, subset_rfl⟩, ?_, hfacts'.trans hfacts⟩
      · rintro ⟨R, id⟩ ⟨⟨hin, hne⟩, hnot⟩
        refine ⟨hin, ?_⟩
        rintro ⟨rfl, b, hb, hid⟩
        rcases List.mem_cons.1 hb with rfl | hb
        · exact hne (Prod.ext (hm.run.symm.trans hm.of.1.symm) (hid.symm.trans hm.id.symm))
        · exact hnot ⟨rfl, b, hb, hid⟩
      · rw [List.forall_mem_cons]
        exact ⟨hframe'.touched htouched, htouched'⟩
    · rintro _ t' ⟨ht', _⟩
      exact ht'.mono (p.enroll_le x)

end GoEtl.Controller
