import GoEtl.Controller.Outputs

/-!
# Releasing dependents

`enqueueReadyAssetMaterializeDependents` looks for work items that waited for the completed one and are
nowhere yet, puts those in the queue that wait for nothing more, and records their memberships. It reads the
queue, the running work and the ended attempts one after the other, while workers claim. What it takes to be
nowhere was nowhere all the time (`Sees.idle`), because work leaves the queue only to run and the queue is
read first.
-/

namespace GoEtl.Controller

open Library Persistence

variable {rt : Runtime} {u : Prop} {p : Pending} {w t : World} {runId : String}

/-! ### Where work items are seen -/

/-- The work item is somewhere, and a member of its step if it is to be one. -/
def Busy (rt : Runtime) (w : World) (x : WorkItemRecord) : Prop :=
  IsPlaced w.db x.id ∧ (Ordinary rt x → IsMember w.db x ∨ Marked w.db x.runId rt)

variable {x : WorkItemRecord}

theorem Busy.interference (h : Busy rt w x) (ht : Interference w t) : Busy rt t x := by
  refine ⟨ht.worked.placed _ h.1, fun ho => (h.2 ho).imp ?_ ?_⟩
  · rw [IsMember, IsMember, ht.worked.members]
    exact id
  · rw [Marked, Marked, ht.worked.instances]
    exact id

variable {db : Store}

theorem isQueued_or_isAttempted (h : Rooted db) {id : String} (hid : IsPlaced db id) :
    IsQueued db id ∨ IsAttempted db id := by
  by_contra hnot
  push Not at hnot
  obtain ⟨hrunning, hfinished⟩ := h.idle_of_not_isAttempted hnot.2
  rcases hid with hq | hr | hf
  · exact hnot.1 hq
  · exact hrunning hr
  · exact hfinished hf

theorem Settled.busy (h : Settled rt u p w) (hqueued : p.queued = ∅) (hx : x ∈ w.db.workItems)
    (hplaced : IsPlaced w.db x.id) : Busy rt w x := by
  refine ⟨hplaced, fun ho => h.enrolled x hx ho (isQueued_or_isAttempted h.rooted hplaced) ?_⟩
  rw [hqueued]
  exact Set.notMem_empty _

theorem isRunning_of_mem_listRunningWork {r : RunningWorkRecord} (h : r ∈ listRunningWork db) :
    IsRunning db r.workItem.id := by
  rw [listRunningWork, List.mem_insertionSort, List.mem_filterMap] at h
  obtain ⟨row, hrow, h⟩ := h
  obtain ⟨⟨x, a⟩, hjoin, rfl⟩ := Option.map_eq_some_iff.1 h
  exact ⟨row, hrow, (joinAttempt_mem hjoin).2.symm⟩

/-- **What a handler sees of where the work items of a run are.** -/
structure Sees (rt : Runtime) (w : World) (runId : String) (seen : Observations) : Prop where
  terminal : ShowsTerminal w.db runId seen.terminal
  /-- What is seen nowhere was nowhere. -/
  idle : ∀ x ∈ w.db.workItems, x.runId = runId → seen.isIdle runId x.id = true →
    ¬ IsQueued w.db x.id ∧ ¬ IsAttempted w.db x.id
  /-- What is seen somewhere is somewhere. -/
  busy : ∀ x ∈ w.db.workItems, x.runId = runId → seen.isIdle runId x.id = false → Busy rt w x

theorem Sees.interference {seen : Observations} (h : Sees rt w runId seen) (ht : Interference w t) :
    Sees rt t runId seen where
  terminal := showsTerminal_of_worked ht.worked h.terminal
  idle x hx hrun hidle := by
    rw [ht.worked.items] at hx
    obtain ⟨hq, ha⟩ := h.idle x hx hrun hidle
    exact ⟨mt (ht.worked.queued _) hq, mt (ht.worked.fresh _ hq) ha⟩
  busy x hx hrun hbusy := by
    rw [ht.worked.items] at hx
    exact (h.busy x hx hrun hbusy).interference ht

theorem ended_iff {seen : Observations} {state : TerminalState} {id : String} : seen.ended state id = true ↔ ∃ t ∈ seen.terminal, t.terminalState = state ∧ t.workItem.id = id := by
  simp [Observations.ended]

/-- The three lists, read one after the other. -/
theorem sees_of_reads {t₁ t₂ t₃ : World} (h : Settled rt u p t₁) (hqueued : p.queued = ∅) (h₂ : Interference t₁ t₂)
    (h₃ : Interference t₂ t₃) {terminal : List TerminalAttemptRecord} (hterminal : ShowsTerminal t₃.db runId terminal) :
    Sees rt t₃ runId ⟨listQueuedWorkItems t₁.db, listRunningWork t₂.db, terminal⟩ where
  terminal := hterminal
  idle x hx hrun hidle := by
    have hitems : t₃.db.workItems = t₁.db.workItems := h₃.worked.items.trans h₂.worked.items
    have hx₂ : x ∈ t₂.db.workItems := by rwa [← h₃.worked.items]
    simp only [Observations.isIdle, Bool.and_eq_true, Bool.not_eq_true', List.any_eq_false, beq_iff_eq,
      Observations.isRunning, Observations.ended, and_assoc, not_and] at hidle
    obtain ⟨hnq, hnr, hnc, hnf⟩ := hidle
    have hq : ¬ IsQueued t₁.db x.id := fun hq => by
      obtain ⟨q, hq, hid⟩ := exists_mem_listQueuedWorkItems (hitems ▸ hx) hq
      exact hnq q hq hid
    have hall := h₂.trans _ _ _ h₃
    refine ⟨mt (hall.worked.queued _) hq, fun ha => ?_⟩
    obtain ⟨a, ha, hid⟩ := hall.worked.fresh _ hq ha
    have hplaced : IsPlaced t₁.db x.id := (show a.workItemId = x.id from hid) ▸ h.rooted.placed a ha
    rcases hplaced with hq' | hrunning | hc | hf
    · exact hq hq'
    · obtain ⟨r, hr, rfl⟩ := (h₂.worked.rooted h.rooted).exists_mem_listRunningWork hx₂ (h₂.worked.running _ hrunning)
      exact hnr r hr hrun rfl
    · rw [IsCompleted, ← h₂.worked.completed, ← h₃.worked.completed] at hc
      obtain ⟨t, ht, rfl, hstate⟩ := hterminal.completed x hx hrun hc
      exact hnc t ht hstate rfl
    · rw [IsFailed, ← h₂.worked.failed, ← h₃.worked.failed] at hf
      obtain ⟨t, ht, rfl, hstate⟩ := hterminal.failed x hx hrun hf
      exact hnf t ht hstate rfl
  busy x hx hrun hbusy := by
    have hx₂ : x ∈ t₂.db.workItems := by rwa [← h₃.worked.items]
    have hx₁ : x ∈ t₁.db.workItems := by rwa [← h₂.worked.items]
    simp only [Observations.isIdle, Bool.and_eq_false_iff, Bool.not_eq_false', List.any_eq_true, beq_iff_eq,
      Observations.isRunning, Observations.ended, Bool.and_eq_true] at hbusy
    rcases hbusy with ((⟨q, hq, hid⟩ | ⟨r, hr, _, hid⟩) | ⟨t, ht, _, hid⟩) | ⟨t, ht, _, hid⟩
    · have hplaced : IsPlaced t₁.db x.id := .inl (hid ▸ isQueued_of_mem_listQueuedWorkForClaim hq)
      exact ((h.busy hqueued hx₁ hplaced).interference h₂).interference h₃
    · have hplaced : IsPlaced t₂.db x.id := .inr (.inl (hid ▸ isRunning_of_mem_listRunningWork hr))
      exact ((h.interference h₂).busy hqueued hx₂ hplaced).interference h₃
    all_goals
      have hfinished : IsFinished t₃.db x.id := by
        rw [← hid]
        exact (hterminal.sound t ht).2.2.imp And.right And.right
      exact ((h.interference h₂).interference h₃).busy hqueued hx (.inr (.inr hfinished))

/-! ### Which dependents are ready -/

/-- A work item that waited for the completed one and waits for nothing more. -/
structure ReadyFor (rt : Runtime) (seen : Observations) (completed record : WorkItemRecord) (item : WorkItem) : Prop where
  other : record.id ≠ completed.id
  idle : seen.isIdle completed.runId record.id = true
  payload : HasPayload rt record item
  waits : completed.id ∈ item.dependsOn
  done : ∀ d ∈ item.dependsOn, seen.ended .completed d = true

section Ready

variable {seen : Observations} {steps : List WorkflowDependencyStepRecord} {completed record : WorkItemRecord}

theorem readyDependent_some {m : StageMembership} (h : readyDependent rt seen steps completed record = .ok (some m)) :
    ∃ item, ReadyFor rt seen completed record item ∧ ∃ s ∈ steps, s.stageIndex = record.stageIndex ∧
      s.stepId = item.stepDefinitionId ∧ m = ⟨record.stageIndex, s.stepIndex, record.id, record.workItemIndex⟩ := by
  unfold readyDependent at h
  split at h
  · cases h
  · rename_i hidle
    push Not at hidle
    obtain ⟨item, hitem, h⟩ := except_bind_ok.1 h
    have hpayload : HasPayload rt record item := wrapError_ok.1 hitem
    split at h
    · cases h
    · rename_i hwaits
      simp only [Bool.or_eq_true, Bool.not_eq_true', not_or, Bool.not_eq_false, List.contains_iff_mem, List.all_eq_true]
        at hwaits
      split at h
      · cases h
      · rename_i step hfind
        cases h
        have hmatch := List.find?_some hfind
        simp only [Bool.and_eq_true, beq_iff_eq] at hmatch
        exact ⟨item, ⟨hidle.1, by simpa using hidle.2, hpayload, hwaits.1, hwaits.2⟩, step,
          List.mem_reverse.1 (List.mem_of_find?_eq_some hfind), hmatch.1, hmatch.2, rfl⟩

theorem readyDependent_none (h : readyDependent rt seen steps completed record = .ok none) (item : WorkItem) :
    ¬ ReadyFor rt seen completed record item := by
  rintro ⟨hother, hidle, hpayload, hwaits, hdone⟩
  unfold readyDependent at h
  rw [if_neg (by simp [hother, hidle])] at h
  obtain ⟨item', hitem, h⟩ := except_bind_ok.1 h
  obtain rfl := hpayload.unique (wrapError_ok.1 hitem)
  rw [if_neg (by simpa [hwaits] using hdone)] at h
  split at h <;> cases h

/-- What is queued is ready, and what is ready is queued. -/
theorem readyDependents_ok {records : List WorkItemRecord} {ready : List (WorkItemRecord × StageMembership)}
    (h : readyDependents rt seen steps completed records = .ok ready) :
    (∀ r ∈ ready, r.1 ∈ records ∧ readyDependent rt seen steps completed r.1 = .ok (some r.2)) ∧
      ∀ x ∈ records, (∃ item, ReadyFor rt seen completed x item) → ∃ r ∈ ready, r.1 = x := by
  induction records generalizing ready with
  | nil =>
    cases h
    simp
  | cons x xs ih =>
    obtain ⟨first, hfirst, h⟩ := except_bind_ok.1 h
    obtain ⟨rest, hrest, h⟩ := except_bind_ok.1 h
    obtain ⟨hsound, hcomplete⟩ := ih hrest
    cases first with
    | none =>
      cases h
      refine ⟨fun r hr => ⟨List.mem_cons_of_mem _ (hsound r hr).1, (hsound r hr).2⟩, ?_⟩
      rw [List.forall_mem_cons]
      exact ⟨fun ⟨item, hready⟩ => absurd hready (readyDependent_none hfirst item), hcomplete⟩
    | some m =>
      cases h
      rw [List.forall_mem_cons, List.forall_mem_cons]
      refine ⟨⟨⟨List.mem_cons_self, hfirst⟩, fun r hr => ⟨List.mem_cons_of_mem _ (hsound r hr).1, (hsound r hr).2⟩⟩,
        fun _ => ⟨_, List.mem_cons_self, rfl⟩, fun y hy hready => ?_⟩
      obtain ⟨r, hr, hrx⟩ := hcomplete y hy hready
      exact ⟨r, List.mem_cons_of_mem _ hr, hrx⟩

end Ready

/-! ### Queueing them -/

section Queue

variable {seen : Observations} {steps : List WorkflowDependencyStepRecord} {completed : WorkItemRecord}
  {records : List WorkItemRecord} {ready : List (WorkItemRecord × StageMembership)}

/-- Nothing that waited for the work item is pending any more. -/
theorem Settled.release (h : Settled rt u p w) (hc : completed ∈ w.db.workItems)
    (hrelease : ∀ a ∈ p.release, a.2 = completed.id)
    (hdone : ∀ x ∈ w.db.workItems, x.runId = completed.runId → ∀ item, HasPayload rt x item →
      completed.id ∈ item.dependsOn →
        (∀ d ∈ item.dependsOn, IsCompleted w.db d ∧ ∃ y ∈ w.db.workItems, y.id = d ∧ y.runId = x.runId) →
          IsPlaced w.db x.id ∨ Marked w.db x.runId rt) :
    Settled rt u { p with release := ∅ } w :=
  { h with
    released := fun x hx item hp hd _ => by
      by_cases hin : ∃ d ∈ item.dependsOn, (x.runId, d) ∈ p.release
      · obtain ⟨d, hmem, hin⟩ := hin
        obtain rfl : d = completed.id := hrelease _ hin
        obtain ⟨_, y, hy, hyid, hyrun⟩ := hd _ hmem
        obtain rfl := item_eq hy hc hyid
        exact hdone x hx hyrun.symm item hp hmem hd
      · push Not at hin
        exact h.released x hx item hp hd hin }

variable (hsees : Sees rt w completed.runId seen) (hc : completed ∈ w.db.workItems)
  (hrecords : ∀ x, x ∈ records ↔ x ∈ w.db.workItems ∧ x.runId = completed.runId)
  (hready : readyDependents rt seen steps completed records = .ok ready)

include hsees hrecords hready

/-- What waited for the completed work item and waits for nothing more is ready, or it is somewhere. -/
theorem ready_or_busy (h : Settled rt u p w) (hqueued : p.queued = ∅) (hx : x ∈ w.db.workItems)
    (hrun : x.runId = completed.runId) {item : WorkItem} (hitem : HasPayload rt x item)
    (hwaits : completed.id ∈ item.dependsOn)
    (hdone : ∀ d ∈ item.dependsOn, IsCompleted w.db d ∧ ∃ y ∈ w.db.workItems, y.id = d ∧ y.runId = x.runId) :
    (∃ r ∈ ready, r.1 = x) ∨ Busy rt w x := by
  by_cases hother : x.id = completed.id
  · exact .inr (h.busy hqueued hx (.inr (.inr (.inl (hother ▸ (hdone _ hwaits).1)))))
  · cases hidle : seen.isIdle completed.runId x.id with
    | false => exact .inr (hsees.busy x hx hrun hidle)
    | true =>
      refine .inl ((readyDependents_ok hready).2 x ((hrecords x).2 ⟨hx, hrun⟩) ⟨item, hother, hidle, hitem, hwaits, ?_⟩)
      intro d hd
      obtain ⟨hcompleted, y, hy, rfl, hyrun⟩ := hdone d hd
      obtain ⟨t, ht, rfl, hstate⟩ := hsees.terminal.completed y hy (hyrun.trans hrun) hcompleted
      exact ended_iff.2 ⟨t, ht, hstate, rfl⟩

/-- A dependent that is ready is a work item of the run that has no attempt, and all it waits for has completed. -/
theorem ready_item {r : WorkItemRecord × StageMembership} (hr : r ∈ ready) :
    r.1 ∈ w.db.workItems ∧ r.1.runId = completed.runId ∧ ¬ IsAttempted w.db r.1.id ∧
      ∃ item, HasPayload rt r.1 item ∧ completed.id ∈ item.dependsOn ∧
        (∀ d ∈ item.dependsOn, IsCompleted w.db d ∧ ∃ y ∈ w.db.workItems, y.id = d ∧ y.runId = r.1.runId) ∧
          ∃ s ∈ steps, s.stageIndex = r.1.stageIndex ∧ s.stepId = item.stepDefinitionId ∧
            r.2 = ⟨r.1.stageIndex, s.stepIndex, r.1.id, r.1.workItemIndex⟩ := by
  obtain ⟨hmem, hdependent⟩ := (readyDependents_ok hready).1 r hr
  obtain ⟨hx, hrun⟩ := (hrecords r.1).1 hmem
  obtain ⟨item, hfor, hstep⟩ := readyDependent_some hdependent
  refine ⟨hx, hrun, (hsees.idle r.1 hx hrun hfor.idle).2, item, hfor.payload, hfor.waits, fun d hd => ?_, hstep⟩
  obtain ⟨t, ht, hstate, rfl⟩ := ended_iff.1 (hfor.done d hd)
  obtain ⟨hitem, htrun, ⟨_, hcompleted⟩ | ⟨hfailed, _⟩⟩ := hsees.terminal.sound t ht
  · exact ⟨hcompleted, t.workItem, hitem, rfl, htrun.trans hrun.symm⟩
  · rw [hstate] at hfailed
    cases hfailed

/-- The dependents that are ready may become members. -/
theorem ready_enrollable (h : Settled rt u p w) (hqueued : p.queued = ∅) (hstarting : p.starting = ∅)
    (hsteps : ∀ s ∈ steps, s ∈ w.db.dependencySteps ∧ s.runId = completed.runId)
    {q : Pending} (hq : ∀ r ∈ ready, (completed.runId, r.1.id) ∈ q.queued) {r : WorkItemRecord × StageMembership}
    (hr : r ∈ ready) : ∃ s x, Enrollable rt u q w completed.runId r.2 s x := by
  obtain ⟨hx, hrun, hfresh, item, hitem, hwaits, hdone, s, hs, hstage, hstepId, hm⟩ := ready_item hsees hrecords hready hr
  obtain ⟨hs, hsrun⟩ := hsteps s hs
  have hof : ItemOf rt s r.1 := ⟨hrun.trans hsrun.symm, hstage.symm, item, hitem, hstepId.symm⟩
  have hordinary : Ordinary rt r.1 := ⟨item, hitem, fun htype => by
    rw [h.materialize r.1 hx item hitem htype] at hwaits
    cases hwaits⟩
  refine ⟨s, r.1, hs, hsrun, by rw [hm, hstage], by rw [hm], hx, by rw [hm], hof, hordinary, ?_, ?_, fun hu y hy hofy => ?_⟩
  · exact fun hcompleted => (h.rooted.idle_of_not_isAttempted hfresh).2 (.inl hcompleted)
  · have hopened := h.opened r.1 hx (by simp [hstarting])
    rw [← hstage, hrun, ← hsrun] at hopened
    exact hopened.imp_right .inl
  · -- The others of the step wait for the same work items.
    obtain ⟨hyrun, _, item', hitem', _⟩ := id hofy
    have hsame := h.dependsOn hu s hs r.1 hx y hy hof hofy item item' hitem hitem'
    rw [hsame] at hwaits hdone
    have hyrun' : y.runId = r.1.runId := hyrun.trans (hsrun.trans hrun.symm)
    rcases ready_or_busy hsees hrecords hready h hqueued hy (hyrun'.trans hrun) hitem' hwaits (by rwa [hyrun']) with
      ⟨r', hr', rfl⟩ | hbusy
    · refine .inr (.inl ?_)
      rw [hyrun, hsrun]
      exact hq r' hr'
    · have hmember := hbusy.2 (h.kind s hs r.1 hx y hy hof hofy hordinary)
      rw [hyrun] at hmember
      exact hmember.imp_right .inr

end Queue

/-! ### The whole program -/

theorem listWorkItemsForRun_ok {records : List WorkItemRecord}
    (h : listWorkItemsForRun db runId = .ok records) :
    x ∈ records ↔ x ∈ db.workItems ∧ x.runId = runId := by
  unfold listWorkItemsForRun at h
  split at h
  · cases h
  · cases h
    rw [List.mem_insertionSort, List.mem_filter, beq_iff_eq]
    rfl

section Program

variable {seen : Observations} {steps : List WorkflowDependencyStepRecord} {completed : WorkItemRecord}
  {records : List WorkItemRecord} {ready : List (WorkItemRecord × StageMembership)} {timestamp : String}

/-- Queueing dependents: nothing that waited is pending any more, but their memberships are. -/
theorem Settled.enqueueReady {fk : Bool} {db' : Store} (h : Settled rt u p w) (hqueued : p.queued = ∅)
    (hsees : Sees rt w completed.runId seen) (hc : completed ∈ w.db.workItems)
    (hrelease : ∀ a ∈ p.release, a.2 = completed.id)
    (hrecords : ∀ x, x ∈ records ↔ x ∈ w.db.workItems ∧ x.runId = completed.runId)
    (hready : readyDependents rt seen steps completed records = .ok ready)
    (htx : enqueueWorkItemsOp fk ((ready.map fun r => (⟨r.1, timestamp⟩ : QueuedWorkRecord)).insertionSort
      (QueuedBefore · ·)) w.db = .ok ((), db')) :
    RecordStep rt u w { w with db := db' } ∧ db'.workItems = w.db.workItems ∧
      Settled rt u ({ p with release := ∅ }.enqueue completed.runId {id | ∃ r ∈ ready, r.1.id = id})
        { w with db := db' } := by
  obtain ⟨table, rfl, htable⟩ := enqueueWorkItemsOp_ok htx
  have hlisted : ∀ id, (∃ q ∈ (ready.map fun r => (⟨r.1, timestamp⟩ : QueuedWorkRecord)).insertionSort
      (QueuedBefore · ·), q.id = id) ↔ ∃ r ∈ ready, r.1.id = id := by
    intro id
    simp only [List.mem_insertionSort, List.mem_map, exists_exists_and_eq_and]
  have hitems : ∀ q ∈ (ready.map fun r => (⟨r.1, timestamp⟩ : QueuedWorkRecord)).insertionSort (QueuedBefore · ·),
      ∃ r ∈ ready, r.1.id = q.id := fun q hq => (hlisted q.id).1 ⟨q, hq, rfl⟩
  have hfresh : ∀ q ∈ (ready.map fun r => (⟨r.1, timestamp⟩ : QueuedWorkRecord)).insertionSort (QueuedBefore · ·),
      ¬ IsAttempted w.db q.id := fun q hq => by
    obtain ⟨r, hr, hid⟩ := hitems q hq
    exact hid ▸ (ready_item hsees hrecords hready hr).2.2.1
  refine ⟨⟨.enqueue htable hfresh h.toShape, ?_⟩, rfl, ?_⟩
  · exact ⟨rfl, rfl, rfl, rfl, rfl, fun _ => id, fun _ _ => id, fun _ => id, fun _ => .inl⟩
  have hsettled := Settled.enqueue htx htable (fun q hq => by
    obtain ⟨r, hr, hid⟩ := hitems q hq
    obtain ⟨hx, hrun, _⟩ := ready_item hsees hrecords hready hr
    exact ⟨r.1, hx, hid, hrun⟩) hfresh h
  simp only [hlisted] at hsettled
  refine hsettled.release hc hrelease fun x hx hrun item hitem hwaits hdone => .inl ?_
  rcases ready_or_busy hsees hrecords hready h hqueued hx hrun hitem hwaits hdone with ⟨r, hr, rfl⟩ | hbusy
  · exact .inl ((htable _).2 (.inr ((hlisted _).2 ⟨r, hr, rfl⟩)))
  · exact hbusy.1.imp_left fun hq => (htable _).2 (.inl hq)

theorem queueDependents_records (hrt : rt.Lawful) (h : Settled rt u p w) (hqueued : p.queued = ∅) (hstarting : p.starting = ∅)
    (hsees : Sees rt w completed.runId seen) (hc : completed ∈ w.db.workItems)
    (hrelease : ∀ a ∈ p.release, a.2 = completed.id)
    (hrecords : ∀ x, x ∈ records ↔ x ∈ w.db.workItems ∧ x.runId = completed.runId)
    (hsteps : ∀ s ∈ steps, s ∈ w.db.dependencySteps ∧ s.runId = completed.runId)
    (hready : readyDependents rt seen steps completed records = .ok ready) :
    Records rt u (queueDependents rt completed.runId timestamp ready) (fun _ t => Settled rt u { p with release := ∅ } t)
      (fun _ _ => True) w := by
  refine Records.bind (Q := fun _ t => Settled rt u ({ p with release := ∅ }.enqueue completed.runId
      {id | ∃ r ∈ ready, r.1.id = id}) t ∧ ∀ r ∈ ready, ∃ s x, Enrollable rt u
        ({ p with release := ∅ }.enqueue completed.runId {id | ∃ r ∈ ready, r.1.id = id}) t completed.runId r.2 s x)
    (E := fun _ _ => True) (withContext_safe (call_safe RecordStep.refl ?_ fun _ _ _ => trivial) fun _ _ => id)
    (fun _ _ _ => id) ?_
  · intro i t ht _ db' htx
    have h := h.interference ht
    have hsees := hsees.interference ht
    rw [← ht.worked.items] at hc hrecords
    rw [← ht.worked.steps] at hsteps
    obtain ⟨hstep, hitems, hsettled⟩ := h.enqueueReady hqueued hsees hc hrelease hrecords hready htx
    refine ⟨hstep, hsettled, fun r hr => ?_⟩
    have hpending : ∀ r ∈ ready, (completed.runId, r.1.id) ∈
        ({ p with release := ∅ }.enqueue completed.runId {id | ∃ r ∈ ready, r.1.id = id}).queued :=
      fun r hr => .inr ⟨rfl, r, hr, rfl⟩
    obtain ⟨s, x, henroll⟩ := ready_enrollable hsees hrecords hready h hqueued hstarting hsteps hpending hr
    exact ⟨s, x, henroll.frame hstep.2⟩
  · rintro _ t - ⟨ht, henroll⟩
    refine (recordMemberships_records hrt ready ht henroll).mono ?_ fun _ _ _ => trivial
    rintro _ t' ⟨ht', _⟩
    refine ht'.mono ⟨subset_rfl, subset_rfl, subset_rfl, ?_, subset_rfl⟩
    rintro a ⟨hin | ⟨ha, r, hr, hid⟩, hnot⟩
    · exact hin
    · have hm := (ready_item hsees hrecords hready hr).2.2.2
      obtain ⟨_, _, _, _, s, _, _, _, hm⟩ := hm
      exact absurd ⟨ha, r, hr, by rw [hm]; exact hid⟩ hnot

/-- **Releasing dependents**: nothing that waited for the completed work item is pending any more. -/
theorem enqueueReadyAssetMaterializeDependents_records (hrt : rt.Lawful) (h : Settled rt u p w) (hqueued : p.queued = ∅)
    (hstarting : p.starting = ∅) (hc : completed ∈ w.db.workItems) (hrelease : ∀ a ∈ p.release, a.2 = completed.id) :
    Records rt u (enqueueReadyAssetMaterializeDependents rt completed timestamp)
      (fun _ t => Settled rt u { p with release := ∅ } t) (fun _ _ => True) w := by
  refine Records.after_read (queryOrFail_reads (Q := fun records t => ∀ x, x ∈ records ↔ x ∈ t.db.workItems ∧
    x.runId = completed.runId) fun _ _ _ hlist _ => listWorkItemsForRun_ok hlist) (fun _ _ _ => trivial) ?_
  rintro records t₁ h₁ hrecords
  refine Records.after_read (query_reads (Q := fun queued t => queued = listQueuedWorkItems t.db) fun _ _ => rfl)
    (fun _ _ _ => trivial) ?_
  rintro _ t₂ h₂ rfl
  refine Records.after_read (query_reads (Q := fun running t => running = listRunningWork t.db) fun _ _ => rfl)
    (fun _ _ _ => trivial) ?_
  rintro _ t₃ h₃ rfl
  have hsettled₂ := (h.interference h₁).interference h₂
  have hrooted₃ := (hsettled₂.interference h₃).rooted
  refine Records.after_read (queryOrFail_reads (Q := fun terminal t => ShowsTerminal t.db completed.runId terminal)
    fun t ht _ hlist => (ht.worked.rooted hrooted₃).showsTerminal hlist) (fun _ _ _ => trivial) ?_
  rintro terminal t₄ h₄ hterminal
  have hsees := sees_of_reads hsettled₂ hqueued h₃ h₄ hterminal
  refine Records.after_read (query_reads (Q := fun steps t => steps = listWorkflowDependencySteps t.db completed.runId)
    fun _ _ => rfl) (fun _ _ _ => trivial) ?_
  rintro _ t₅ h₅ rfl
  have hall := ((h₂.trans _ _ _ h₃).trans _ _ _ h₄).trans _ _ _ h₅
  replace h := (h.interference h₁).interference hall
  replace hsees := hsees.interference h₅
  rw [← h₁.worked.items, ← hall.worked.items] at hc
  rw [← hall.worked.items] at hrecords
  refine Records.bind (Q := fun ready t => t = t₅ ∧ readyDependents rt _ _ completed records = .ok ready)
    (E := fun _ _ => True) (Prog.Safe.ofExcept (fun _ hready => ⟨rfl, hready⟩) fun _ _ => trivial) (fun _ _ _ => id) ?_
  rintro ready _ - ⟨rfl, hready⟩
  split
  · rename_i hempty
    obtain rfl := List.isEmpty_iff.1 hempty
    refine h.release hc hrelease fun x hx hrun item hitem hwaits hdone => .inl ?_
    rcases ready_or_busy hsees hrecords hready h hqueued hx hrun hitem hwaits hdone with ⟨r, hr, _⟩ | hbusy
    · cases hr
    · exact hbusy.1
  · exact queueDependents_records hrt h hqueued hstarting hsees hc hrelease hrecords
      (fun _ => mem_listWorkflowDependencySteps.1) hready

end Program

end GoEtl.Controller
