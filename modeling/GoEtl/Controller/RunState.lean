import GoEtl.Persistence.Rows
import GoEtl.Controller.Derivation
import GoEtl.Controller.DependencyStore

/-!
# What is recorded of a run

The state of a run in the store, in the terms that its invariants are about: which steps have their
output, which have members, which stages nothing is recorded of, and which runs are marked as failed.

A handler reads that state in several calls, and workers go on between them. `Interference` is what they
may do there, and **`getWorkflowDependencyState_reads`** says what the handler learns nevertheless: the plan it
derives is the plan of the rows as they are when it ends, up to which work it saw queued and running
(`Derived`).
-/

namespace GoEtl.Controller

open Library Persistence

/-! ### Steps and stages -/

section Defs

variable (db : Store) (runId : String)

/-- The output of a step is recorded. -/
def HasFact (stepIndex : ℤ) : Prop := db.stepOutputFacts.Has (·.key) (runId, stepIndex)

/-- The run has a stage with this index. -/
def HasStage (k : ℤ) : Prop := ∃ s ∈ db.dependencySteps, s.runId = runId ∧ s.stageIndex = k

/-- The membership is in the step. -/
def MemberOf (s : WorkflowDependencyStepRecord) (m : WorkflowDependencyWorkItemRecord) : Prop :=
  m.runId = s.runId ∧ m.stageIndex = s.stageIndex ∧ m.stepIndex = s.stepIndex

/-- The step has a member. -/
def HasMember (s : WorkflowDependencyStepRecord) : Prop := ∃ m ∈ db.dependencyWorkItems, MemberOf s m

/-- Something is recorded of the stage: an output or a member of one of its steps. -/
def Touched (k : ℤ) : Prop :=
  ∃ s ∈ db.dependencySteps, s.runId = runId ∧ s.stageIndex = k ∧ (HasFact db s.runId s.stepIndex ∨ HasMember db s)

/-- The step is done: it has its output, or members that have all completed. -/
def StepDone (s : WorkflowDependencyStepRecord) : Prop :=
  HasFact db s.runId s.stepIndex ∨
    (HasMember db s ∧ ∀ m ∈ db.dependencyWorkItems, MemberOf s m → IsCompleted db m.workItemId)

/-- All steps of the stage are done. -/
def StageDone (k : ℤ) : Prop :=
  HasStage db runId k ∧ ∀ s ∈ db.dependencySteps, s.runId = runId → s.stageIndex = k → StepDone db s

/-- A member of the run has failed. -/
def MemberFailed : Prop := ∃ m ∈ db.dependencyWorkItems, m.runId = runId ∧ IsFailed db m.workItemId

/-- The run is marked as failed: a failed plan is stored in its submission context. -/
def Marked (rt : Runtime) : Prop :=
  ∃ r ∈ db.workflowInstances, r.id = runId ∧
    ∃ p, legacyWorkflowDependencyPlan rt r.submissionContextJson = some p ∧ p.state = .failed

/-- The run has failed. -/
def Dead (rt : Runtime) : Prop := Marked db runId rt ∨ MemberFailed db runId

instance (stepIndex : ℤ) : Decidable (HasFact db runId stepIndex) :=
  inferInstanceAs (Decidable (db.stepOutputFacts.Has (·.key) (runId, stepIndex)))

instance (k : ℤ) : Decidable (HasStage db runId k) := inferInstanceAs (Decidable (∃ s ∈ db.dependencySteps, _))

instance (s : WorkflowDependencyStepRecord) : DecidablePred (MemberOf s) := fun _ => instDecidableAnd

instance (s : WorkflowDependencyStepRecord) : Decidable (HasMember db s) :=
  inferInstanceAs (Decidable (∃ m ∈ db.dependencyWorkItems, _))

instance (k : ℤ) : Decidable (Touched db runId k) := inferInstanceAs (Decidable (∃ s ∈ db.dependencySteps, _))

instance (s : WorkflowDependencyStepRecord) : Decidable (StepDone db s) := instDecidableOr

instance (k : ℤ) : Decidable (StageDone db runId k) := instDecidableAnd

instance : Decidable (MemberFailed db runId) := inferInstanceAs (Decidable (∃ m ∈ db.dependencyWorkItems, _))

instance (rt : Runtime) : Decidable (Marked db runId rt) :=
  decidable_of_iff (∃ r ∈ db.workflowInstances, r.id = runId ∧
    ∃ p ∈ legacyWorkflowDependencyPlan rt r.submissionContextJson, p.state = .failed) Iff.rfl

instance (rt : Runtime) : Decidable (Dead db runId rt) := instDecidableOr

/-- The run has a row and a plan. -/
def HasPlan : Prop := (∃ r ∈ db.workflowInstances, r.id = runId) ∧ ∃ s ∈ db.dependencySteps, s.runId = runId

/-- The memberships of a step, in order. -/
def membersOfStep (stageIndex stepIndex : ℤ) : List WorkflowDependencyWorkItemRecord :=
  (db.dependencyWorkItems.rows.filter
    (WorkflowDependencyWorkItemRecord.ofStep runId stageIndex stepIndex)).insertionSort (·.before ·)

/-- The rows of a step. -/
def rowsOfStep (record : WorkflowDependencyStepRecord) : StepRows :=
  ⟨record, getWorkflowStepOutputFact db runId record.stepIndex,
    membersOfStep db runId record.stageIndex record.stepIndex⟩

/-- The rows of the steps of a run. -/
def stepRows : List StepRows := (listWorkflowDependencySteps db runId).map (rowsOfStep db runId)

/-- A plan that was derived from the rows of the run, or none if it has none. -/
def Derived (rt : Runtime) : Option DependencyPlan → Prop
  | none => ¬ HasPlan db runId
  | some plan => ∃ run ∈ db.workflowInstances, run.id = runId ∧ ∃ seen : Observations,
      ShowsTerminal db runId seen.terminal ∧
        reconstructPlan run (legacyWorkflowDependencyPlan rt run.submissionContextJson) (stepRows db runId) seen = .ok plan

end Defs

variable {db : Store} {runId : String}

variable {s : WorkflowDependencyStepRecord}

theorem mem_listWorkflowDependencySteps :
    s ∈ listWorkflowDependencySteps db runId ↔ s ∈ db.dependencySteps ∧ s.runId = runId := by
  rw [listWorkflowDependencySteps, List.mem_insertionSort, List.mem_filter, beq_iff_eq]
  rfl

variable {k : ℤ}

theorem mem_membersOfStep {m : WorkflowDependencyWorkItemRecord} {i : ℤ} :
    m ∈ membersOfStep db runId k i ↔
      m ∈ db.dependencyWorkItems ∧ m.runId = runId ∧ m.stageIndex = k ∧ m.stepIndex = i := by
  rw [membersOfStep, List.mem_insertionSort, List.mem_filter]
  simp [WorkflowDependencyWorkItemRecord.ofStep, and_assoc]

theorem mem_stepRows {r : StepRows} :
    r ∈ stepRows db runId ↔ ∃ s ∈ db.dependencySteps, s.runId = runId ∧ r = rowsOfStep db runId s := by
  simp only [stepRows, List.mem_map, mem_listWorkflowDependencySteps, and_assoc, eq_comm]

theorem exists_stepRows {P : StepRows → Prop} : (∃ r ∈ stepRows db runId, P r) ↔
    ∃ s ∈ db.dependencySteps, s.runId = runId ∧ P (rowsOfStep db runId s) := by
  simp [stepRows, mem_listWorkflowDependencySteps, and_assoc]

theorem forall_stepRows {P : StepRows → Prop} : (∀ r ∈ stepRows db runId, P r) ↔
    ∀ s ∈ db.dependencySteps, s.runId = runId → P (rowsOfStep db runId s) := by
  rw [stepRows, List.forall_mem_map]
  simp [mem_listWorkflowDependencySteps]

theorem getWorkflowRun_eq_some {run : WorkflowRunRecord} :
    getWorkflowRun db runId = some run ↔ run ∈ db.workflowInstances ∧ run.id = runId := by
  constructor
  · intro h
    exact ⟨(Table.lookup_mem h).1, by simpa using (Table.lookup_mem h).2⟩
  · rintro ⟨hmem, rfl⟩
    exact Table.lookup_eq_some (fun a b ha hb => by simp_all [Schema.workflowInstances]) hmem (by simp)

theorem getWorkflowRun_eq_none : getWorkflowRun db runId = none ↔ ∀ run ∈ db.workflowInstances, run.id ≠ runId := by
  simp [getWorkflowRun, Table.lookup, List.find?_eq_none]

theorem rowsOfStep_fact : (rowsOfStep db runId s).fact.isSome = true ↔ HasFact db runId s.stepIndex := by
  rw [Option.isSome_iff_exists]
  constructor
  · rintro ⟨fact, h⟩
    obtain ⟨hmem, hkey⟩ := Table.lookup_mem h
    refine ⟨fact, hmem, ?_⟩
    simpa [WorkflowStepOutputFactRecord.key] using hkey
  · rintro ⟨fact, hmem, hkey⟩
    refine ⟨fact, Table.lookup_eq_some (fun a b ha hb => ?_) hmem ?_⟩
    · simp_all [Schema.stepOutputFacts]
    · simpa [WorkflowStepOutputFactRecord.key] using hkey

theorem mem_rowsOfStep_memberships {m : WorkflowDependencyWorkItemRecord} :
    m ∈ (rowsOfStep db s.runId s).memberships ↔ m ∈ db.dependencyWorkItems ∧ MemberOf s m := mem_membersOfStep

/-! ### What a derived plan shows of the rows -/

section Shown

variable {seen : Observations} {w : String}

theorem terminalOf_mem {t : TerminalAttemptRecord} (h : seen.terminalOf w = some t) :
    t ∈ seen.terminal ∧ t.workItem.id = w :=
  ⟨List.mem_reverse.1 (List.mem_of_find?_eq_some h), by simpa using List.find?_some h⟩

theorem exists_terminalOf {t : TerminalAttemptRecord} (h : t ∈ seen.terminal) :
    ∃ t', seen.terminalOf t.workItem.id = some t' := by
  rw [← Option.isSome_iff_exists, Observations.terminalOf, List.find?_isSome]
  exact ⟨t, List.mem_reverse.2 h, by simp⟩

variable (hseen : ShowsTerminal db runId seen.terminal)

include hseen

theorem isFailed_of_shows (h : ShowsFailed seen w) : IsFailed db w := by
  obtain ⟨t, hfind, hstate⟩ := h
  obtain ⟨hmem, rfl⟩ := terminalOf_mem hfind
  rcases (hseen.sound t hmem).2.2 with ⟨hcompleted, _⟩ | ⟨_, hfailed⟩
  · rw [hcompleted] at hstate
    cases hstate
  · exact hfailed

theorem isCompleted_of_shows (h : ShowsCompleted seen w) : IsCompleted db w := by
  obtain ⟨t, hfind, hstate⟩ := h
  obtain ⟨hmem, rfl⟩ := terminalOf_mem hfind
  rcases (hseen.sound t hmem).2.2 with ⟨_, hcompleted⟩ | ⟨hfailed, _⟩
  · exact hcompleted
  · rw [hfailed] at hstate
    cases hstate

theorem shows_of_isCompleted {x : WorkItemRecord} (hx : x ∈ db.workItems) (hrun : x.runId = runId)
    (h : IsCompleted db x.id) : ShowsCompleted seen x.id ∨ ShowsFailed seen x.id := by
  obtain ⟨t, ht, rfl, _⟩ := hseen.completed x hx hrun h
  obtain ⟨t', ht'⟩ := exists_terminalOf ht
  cases hstate : t'.terminalState with
  | completed => exact .inl ⟨t', ht', hstate⟩
  | failed => exact .inr ⟨t', ht', hstate⟩

theorem shows_of_isFailed {x : WorkItemRecord} (hx : x ∈ db.workItems) (hrun : x.runId = runId)
    (h : IsFailed db x.id) (hnot : ¬ IsCompleted db x.id) : ShowsFailed seen x.id := by
  obtain ⟨t, ht, rfl, _⟩ := hseen.failed x hx hrun h
  obtain ⟨t', ht'⟩ := exists_terminalOf ht
  cases hstate : t'.terminalState with
  | completed => exact absurd (isCompleted_of_shows hseen ⟨t', ht', hstate⟩) hnot
  | failed => exact ⟨t', ht', hstate⟩

end Shown

/-- A plan that was stored is one that has failed. -/
def StoredFailed (rt : Runtime) (db : Store) : Prop :=
  ∀ r ∈ db.workflowInstances, ∀ p, legacyWorkflowDependencyPlan rt r.submissionContextJson = some p → p.state = .failed

variable {rt : Runtime} {plan : DependencyPlan}

theorem run_eq {r r' : WorkflowRunRecord} (hr : r ∈ db.workflowInstances) (hr' : r' ∈ db.workflowInstances)
    (h : r.id = r'.id) : r = r' :=
  Table.eq_of_clash hr hr' (by simp [Schema.workflowInstances, h])

/-- The plan of a marked run has failed. -/
theorem Derived.failed_of_marked (h : Derived db runId rt (some plan)) (hmarked : Marked db runId rt) :
    plan.state = .failed := by
  obtain ⟨run, hrun, hid, seen, _, hplan⟩ := h
  obtain ⟨r, hr, hrid, p, hp, hfailed⟩ := hmarked
  rw [run_eq hrun hr (hid.trans hrid.symm), hp] at hplan
  rw [(reconstructPlan_ok.1 hplan).1]
  exact withStoredFailure_failed hfailed

/-- The plan of a run that is not marked is derived from its rows alone. -/
theorem Derived.eq_derivePlan (h : Derived db runId rt (some plan)) (hstored : StoredFailed rt db)
    (hmarked : ¬ Marked db runId rt) :
    ∃ run ∈ db.workflowInstances, run.id = runId ∧ ∃ seen : Observations, ShowsTerminal db runId seen.terminal ∧
      plan = derivePlan run none (stepRows db runId) seen := by
  obtain ⟨run, hrun, hid, seen, hseen, hplan⟩ := h
  refine ⟨run, hrun, hid, seen, hseen, ?_⟩
  cases hlegacy : legacyWorkflowDependencyPlan rt run.submissionContextJson with
  | some p => exact absurd ⟨run, hrun, hid, p, hlegacy, hstored run hrun p hlegacy⟩ hmarked
  | none =>
    rw [hlegacy] at hplan
    exact (reconstructPlan_ok.1 hplan).1

/-- A stage that is found in a plan has steps. -/
theorem Derived.hasStage (h : Derived db runId rt (some plan)) {stage : DependencyStage}
    (hstage : findDependencyStage plan k = some stage) : HasStage db runId k := by
  obtain ⟨run, _, _, seen, _, hplan⟩ := h
  rw [(reconstructPlan_ok.1 hplan).1] at hstage
  obtain ⟨⟨r, hr, hk⟩, _⟩ := findDependencyStage_derivePlan hstage
  obtain ⟨s, hs, hsrun, rfl⟩ := mem_stepRows.1 hr
  exact ⟨s, hs, hsrun, hk⟩

theorem Derived.exists_stage (h : Derived db runId rt (some plan)) (hk : HasStage db runId k) :
    ∃ stage, findDependencyStage plan k = some stage := by
  obtain ⟨run, _, _, seen, _, hplan⟩ := h
  rw [(reconstructPlan_ok.1 hplan).1]
  obtain ⟨s, hs, hsrun, hsk⟩ := hk
  exact findDependencyStage_isSome ⟨_, mem_stepRows.2 ⟨s, hs, hsrun, rfl⟩, hsk⟩

/-! ### Reading among workers -/

/-- What others do between two calls of a handler that has its turn. -/
structure Interference (w w' : World) : Prop where
  activations : w'.activations = w.activations
  worked : Worked w.db w'.db

theorem Interference.refl (w : World) : Interference w w := ⟨rfl, .refl _⟩

theorem Interference.trans (w₁ w₂ w₃ : World) (h : Interference w₁ w₂) (h' : Interference w₂ w₃) :
    Interference w₁ w₃ :=
  ⟨h'.activations.trans h.activations, h.worked.trans _ _ _ h'.worked⟩

variable {w : World}

theorem Interference.dead_iff {t : World} (h : Interference w t) : Dead t.db runId rt ↔ Dead w.db runId rt := by
  rw [Dead, Dead, Marked, Marked, MemberFailed, MemberFailed, h.worked.instances, h.worked.members]
  simp only [IsFailed, h.worked.failed]

theorem Interference.touched_iff {t : World} (h : Interference w t) :
    Touched t.db runId k ↔ Touched w.db runId k := by
  simp only [Touched, HasFact, HasMember, h.worked.steps, h.worked.facts, h.worked.members]

theorem showsTerminal_of_worked {s t : Store} (h : Worked s t) {terminal : List TerminalAttemptRecord}
    (hs : ShowsTerminal s runId terminal) : ShowsTerminal t runId terminal := by
  obtain ⟨h₁, h₂, h₃, h₄⟩ := hs
  constructor <;> simpa only [h.items, IsCompleted, IsFailed, h.completed, h.failed]

theorem listWorkflowDependencyWorkItems_ok {i : ℤ} {members : List WorkflowDependencyWorkItemRecord}
    (h : listWorkflowDependencyWorkItems db runId k i = .ok members) : members = membersOfStep db runId k i := by
  unfold listWorkflowDependencyWorkItems at h
  split at h
  · cases h
  · split at h
    · cases h
    · split at h
      · cases h
      · cases h
        rfl

section Reading

variable {α β : Type} {w : World} {G : World → World → Prop} {Q : α → World → Prop} {E : String → World → Prop}

/-- A program that only reads: it may be interrupted and leaves everything as the others leave it. -/
abbrev Reads (p : Ctl α) (Q : α → World → Prop) (w : World) : Prop :=
  p.Safe Interference Eq Q (fun _ _ => True) w

theorem query_reads {g : Store → α} (h : ∀ t, Interference w t → Q (g t.db) t) : Reads (query g) Q w :=
  Prog.Safe.read (fun _ => rfl) fun _ t => h t

theorem queryOrFail_reads {g : Store → Except String α}
    (h : ∀ t, Interference w t → ∀ a, g t.db = .ok a → Q a t) : Reads (queryOrFail g) Q w := by
  refine Prog.Safe.bind (Prog.Safe.read (fun _ => rfl) fun _ t ht => ?_)
  exact Prog.Safe.ofExcept (h t ht) fun _ _ => trivial

/-- What a reading program learned is there for the program after it, in a state that only workers changed. -/
theorem Reads.bind {p : Ctl α} {f : α → Ctl β} {Q' : β → World → Prop} (hp : Reads p Q w) (hG : ∀ t, G t t)
    (hE : ∀ e t, Interference w t → E e t)
    (hf : ∀ a t, Interference w t → Q a t → (f a).Safe Interference G Q' E t) :
    (p >>= f).Safe Interference G Q' E w := by
  have hreach := Prog.Safe.reaches Interference.refl Interference.trans (fun _ _ => id)
    (fun t u (htu : t = u) => htu ▸ Interference.refl t) hp
  refine Prog.Safe.bind ((hreach.weaken fun t u htu => htu ▸ hG t).mono ?_ ?_)
  · exact fun a t h => hf a t h.2 h.1
  · exact fun e t h => hE e t h.2

theorem Reads.next {p : Ctl α} {f : α → Ctl β} {Q' : β → World → Prop} (hp : Reads p Q w)
    (hf : ∀ a t, Interference w t → Q a t → Reads (f a) Q' t) : Reads (p >>= f) Q' w :=
  Reads.bind hp (fun _ => rfl) (fun _ _ _ => trivial) hf

theorem readStepRows_reads (records : List WorkflowDependencyStepRecord) :
    Reads (readStepRows runId records) (fun rows t => rows = records.map (rowsOfStep t.db runId)) w := by
  induction records generalizing w with
  | nil => exact rfl
  | cons record records ih =>
    refine Reads.next (query_reads (Q := fun fact t => fact = getWorkflowStepOutputFact t.db runId record.stepIndex)
      fun _ _ => rfl) ?_
    rintro _ t₁ - rfl
    refine Reads.next (queryOrFail_reads (Q := fun members t =>
      members = membersOfStep t.db runId record.stageIndex record.stepIndex) fun t _ members h =>
        listWorkflowDependencyWorkItems_ok h) ?_
    rintro _ t₂ h₂ rfl
    refine Reads.next ih ?_
    rintro _ t₃ h₃ rfl
    -- Only workers were active since the first read, and they leave outputs and memberships alone.
    show StepRows.mk record _ _ :: _ = rowsOfStep t₃.db runId record :: _
    simp only [rowsOfStep, getWorkflowStepOutputFact, membersOfStep, h₃.worked.facts, h₃.worked.members,
      h₂.worked.facts]

/-- `getWorkflowDependencyState` of a run with steps. -/
theorem readDependencyState_reads (hroot : Rooted w.db) {run : WorkflowRunRecord}
    (hrun : run ∈ w.db.workflowInstances) :
    Reads (readDependencyState rt run (listWorkflowDependencySteps w.db run.id))
      (fun plan t => Derived t.db run.id rt (some plan)) w := by
  refine Reads.next (query_reads (Q := fun _ _ => True) fun _ _ => trivial) ?_
  rintro queued t₁ h₁ -
  refine Reads.next (query_reads (Q := fun _ _ => True) fun _ _ => trivial) ?_
  rintro running t₂ h₂ -
  refine Reads.next (queryOrFail_reads (Q := fun terminal t => ShowsTerminal t.db run.id terminal)
    fun t ht terminal h => ?_) ?_
  · exact (ht.worked.rooted (h₂.worked.rooted (h₁.worked.rooted hroot))).showsTerminal h
  rintro terminal t₃ h₃ hterminal
  refine Reads.next (readStepRows_reads _) ?_
  rintro _ t₄ h₄ rfl
  have hall : Interference w t₄ :=
    ((h₁.trans _ _ _ h₂).trans _ _ _ h₃).trans _ _ _ h₄
  refine Prog.Safe.ofExcept (fun plan hplan => ?_) fun _ _ => trivial
  refine ⟨run, by rw [hall.worked.instances]; exact hrun, rfl, ⟨queued, running, terminal⟩,
    showsTerminal_of_worked h₄.worked hterminal, ?_⟩
  rw [stepRows, listWorkflowDependencySteps, hall.worked.steps]
  exact hplan

/-- **What a handler learns of a run**: the plan it derives is the plan of the rows. -/
theorem getWorkflowDependencyState_reads (hroot : Rooted w.db) :
    Reads (getWorkflowDependencyState rt runId) (fun result t => Derived t.db runId rt result) w := by
  refine Reads.next (query_reads (Q := fun found t => found = getWorkflowRun t.db runId) fun _ _ => rfl) ?_
  rintro _ t₁ h₁ rfl
  cases hfound : getWorkflowRun t₁.db runId with
  | none =>
    rintro ⟨⟨run, hrun, hid⟩, _⟩
    exact getWorkflowRun_eq_none.1 hfound run hrun hid
  | some run =>
    obtain ⟨hrun, rfl⟩ := getWorkflowRun_eq_some.1 hfound
    refine Reads.next (query_reads (Q := fun records t => records = listWorkflowDependencySteps t.db run.id)
      fun _ _ => rfl) ?_
    rintro _ t₂ h₂ rfl
    split
    · rename_i hempty
      rintro ⟨_, s, hs, hsrun⟩
      have := mem_listWorkflowDependencySteps.2 ⟨hs, hsrun⟩
      rw [List.isEmpty_iff.1 hempty] at this
      cases this
    · have hroot₂ : Rooted t₂.db := h₂.worked.rooted (h₁.worked.rooted hroot)
      have hrun₂ : run ∈ t₂.db.workflowInstances := by rwa [h₂.worked.instances]
      refine Reads.next (readDependencyState_reads hroot₂ hrun₂) ?_
      exact fun plan t _ hplan => hplan

end Reading

/-- The state of a run as `getWorkflowDependencyState` derives it when nothing goes on beside it. -/
def derivedState (rt : Runtime) (i : Input) (w : World) (runId : String) : Except String (Option DependencyPlan) :=
  ((getWorkflowDependencyState rt runId).alone i w).1

theorem derivedState_ok {i : Input} {result : Option DependencyPlan} (hroot : Rooted w.db)
    (h : derivedState rt i w runId = .ok result) : Derived w.db runId rt result := by
  obtain ⟨hderived, hsame⟩ := (getWorkflowDependencyState_reads hroot).alone (T := Eq) Interference.refl (fun _ => rfl)
    (fun _ _ _ => Eq.trans) (fun _ _ => id) h
  rwa [← hsame] at hderived

end GoEtl.Controller
