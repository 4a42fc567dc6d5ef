import GoEtl.Persistence.Placement
import GoEtl.Persistence.Queries

/-!
# The rows of a run

What the operations of a submission, an activation and a report write to the queue, row by row: one inversion per
operation, with the table it changes. And what holds of the rows of attempts, whatever is called: the
work item of an attempt exists and is placed somewhere, and running and finished work has its attempt
(`Rooted`). The joins of the store's queries therefore drop no row (`mem_listTerminalAttemptsForRun`).
-/

namespace GoEtl.Persistence

open Library

variable {fk : Bool} {db db' : Store} {u : Unit}

/-! ### The queue -/

/-- Work items are there already, or they are new. -/
theorem insertWorkItems_ok {items : List WorkItemRecord} (h : insertWorkItems fk items db = .ok (u, db')) :
    ∃ t, db' = { db with workItems := t } ∧ ∀ x, x ∈ t ↔ x ∈ db.workItems ∨ x ∈ items :=
  forM_insertOnce (f := Store.workItems) (g := fun db t => { db with workItems := t })
    (fun _ _ => rfl) (fun _ _ _ => rfl) (fun _ => rfl) h

theorem insertWorkItemResourceConstraints_ok {constraints : List WorkItemResourceConstraintRecord}
    (h : insertWorkItemResourceConstraints fk constraints db = .ok (u, db')) :
    ∃ t, db' = { db with resourceConstraints := t } ∧ ∀ x, x ∈ t ↔ x ∈ db.resourceConstraints ∨ x ∈ constraints :=
  forM_insertOnce (f := Store.resourceConstraints) (g := fun db t => { db with resourceConstraints := t })
    (fun _ _ => rfl) (fun _ _ _ => rfl) (fun _ => rfl) h

variable {queued : List QueuedWorkRecord}

/-- What is named is in the queue afterwards, and nothing else is new there. -/
theorem enqueueWorkItems_ok (h : enqueueWorkItems fk queued db = .ok (u, db')) :
    ∃ t, db' = { db with queuedWork := t } ∧
      ∀ w, t.Has (·.workItemId) w ↔ IsQueued db w ∨ ∃ q ∈ queued, q.id = w := by
  induction queued generalizing db with
  | nil =>
    obtain rfl := Tx.forM_nil_ok.1 h
    exact ⟨_, rfl, fun w => by simp [IsQueued]⟩
  | cons q queued ih =>
    obtain ⟨db₁, hq, h⟩ := Tx.forM_cons_ok.1 h
    obtain ⟨t₁, rfl, ht₁⟩ : ∃ t, db₁ = { db with queuedWork := t } ∧
        ∀ w, t.Has (·.workItemId) w ↔ IsQueued db w ∨ q.id = w := by
      rcases enqueueWorkItem_ok hq with ⟨rfl, row, hrow, hid⟩ | ⟨t', ht', rfl⟩
      · refine ⟨_, rfl, fun w => ⟨.inl, ?_⟩⟩
        rintro (hw | rfl)
        · exact hw
        · exact ⟨row, hrow, hid⟩
      · exact ⟨t', rfl, fun w => Table.has_insert ht'⟩
    obtain ⟨t, rfl, ht⟩ := ih h
    refine ⟨t, rfl, fun w => (ht w).trans ?_⟩
    rw [IsQueued, ht₁ w, or_assoc]
    simp only [List.mem_cons, or_and_right, exists_or, exists_eq_left]

/-- Work items, their constraints and their places in the queue, one after the other. -/
theorem publish_ok {items : List WorkItemRecord} {constraints : List WorkItemResourceConstraintRecord}
    (h : (insertWorkItems fk items >>= fun _ => insertWorkItemResourceConstraints fk constraints >>= fun _ =>
      enqueueWorkItems fk queued) db = .ok (u, db')) :
    ∃ items' constraints' queued',
      db' = { db with workItems := items', resourceConstraints := constraints', queuedWork := queued' } ∧
      (∀ x, x ∈ items' ↔ x ∈ db.workItems ∨ x ∈ items) ∧
      (∀ x, x ∈ constraints' ↔ x ∈ db.resourceConstraints ∨ x ∈ constraints) ∧
      ∀ w, queued'.Has (·.workItemId) w ↔ IsQueued db w ∨ ∃ q ∈ queued, q.id = w := by
  obtain ⟨_, db₁, hitems, h⟩ := Tx.bind_ok.1 h
  obtain ⟨items', rfl, hmem⟩ := insertWorkItems_ok hitems
  obtain ⟨_, db₂, hconstraints, h⟩ := Tx.bind_ok.1 h
  obtain ⟨constraints', rfl, hmem'⟩ := insertWorkItemResourceConstraints_ok hconstraints
  obtain ⟨queued', rfl, hqueued⟩ := enqueueWorkItems_ok h
  exact ⟨items', constraints', queued', rfl, hmem, hmem', hqueued⟩

/-- `QueueWorkItems` inserts the work items and puts what it names in the queue. -/
theorem queueWorkItems_ok {request : QueueWorkItemsRequest} (h : queueWorkItems fk request db = .ok (u, db')) :
    request.validate = .ok () ∧ ∃ items constraints queued,
      db' = { db with workItems := items, resourceConstraints := constraints, queuedWork := queued } ∧
      (∀ x, x ∈ items ↔ x ∈ db.workItems ∨ x ∈ request.workItems) ∧
      ∀ w, queued.Has (·.workItemId) w ↔ IsQueued db w ∨ ∃ q ∈ request.queuedWork, q.id = w := by
  obtain ⟨hvalid, h⟩ := validated_bind.1 h
  obtain ⟨items, constraints, queued, rfl, hmem, _, hqueued⟩ := publish_ok h
  exact ⟨hvalid, items, constraints, queued, rfl, hmem, hqueued⟩

theorem enqueueWorkItemsOp_ok (h : enqueueWorkItemsOp fk queued db = .ok (u, db')) :
    ∃ t, db' = { db with queuedWork := t } ∧
      ∀ w, t.Has (·.workItemId) w ↔ IsQueued db w ∨ ∃ q ∈ queued, q.id = w := by
  obtain ⟨_, h⟩ := validated_bind.1 h
  exact enqueueWorkItems_ok h

/-! ### Attempts -/

/-- The work item has an attempt. -/
def IsAttempted (db : Store) (w : String) : Prop := db.attempts.Has (·.workItemId) w

instance (db : Store) (w : String) : Decidable (IsAttempted db w) :=
  inferInstanceAs (Decidable (db.attempts.Has (·.workItemId) w))

/-- The attempt and the work item that a row names exist. -/
def AttemptOf (db : Store) (attemptId workItemId : String) : Prop :=
  (∃ x ∈ db.workItems, x.id = workItemId) ∧ ∃ a ∈ db.attempts, a.attemptId = attemptId ∧ a.workItemId = workItemId

/-- **Attempts are rooted**: an attempted work item exists and is somewhere, and running and finished work
has its attempt. -/
structure Rooted (db : Store) : Prop where
  item : ∀ a ∈ db.attempts, ∃ x ∈ db.workItems, x.id = a.workItemId
  placed : ∀ a ∈ db.attempts, IsPlaced db a.workItemId
  running : ∀ r ∈ db.runningWork, AttemptOf db r.attemptId r.workItemId
  completed : ∀ r ∈ db.completedWork, AttemptOf db r.attemptId r.workItemId
  failed : ∀ r ∈ db.failedWork, AttemptOf db r.attemptId r.workItemId

theorem Rooted.empty : Rooted Store.empty := by
  constructor <;> exact fun _ h => absurd h Table.not_mem_empty

variable {attemptId w : String}

theorem AttemptOf.mono (h : AttemptOf db attemptId w) (hitems : ∀ x ∈ db.workItems, x ∈ db'.workItems)
    (hattempts : ∀ a ∈ db.attempts, a ∈ db'.attempts) :
    AttemptOf db' attemptId w := by
  obtain ⟨⟨x, hx, hxw⟩, a, ha, haw⟩ := h
  exact ⟨⟨x, hitems x hx, hxw⟩, a, hattempts a ha, haw⟩

variable {e : Event}

/-- A move that makes no attempt keeps attempts rooted, if the running and finished rows after it had
their attempts before. -/
theorem Rooted.of_move (h : Rooted db) (hmove : Move db e db') (hitems : ∀ x ∈ db.workItems, x ∈ db'.workItems)
    (hattempts : db'.attempts = db.attempts) (hrunning : ∀ r ∈ db'.runningWork, AttemptOf db r.attemptId r.workItemId)
    (hcompleted : ∀ r ∈ db'.completedWork, AttemptOf db r.attemptId r.workItemId)
    (hfailed : ∀ r ∈ db'.failedWork, AttemptOf db r.attemptId r.workItemId) : Rooted db' := by
  have hmono : ∀ {attemptId w}, AttemptOf db attemptId w → AttemptOf db' attemptId w := fun hof =>
    hof.mono hitems (by simp [hattempts])
  refine ⟨fun a ha => ?_, fun a ha => ?_, fun r hr => hmono (hrunning r hr),
    fun r hr => hmono (hcompleted r hr), fun r hr => hmono (hfailed r hr)⟩
  · obtain ⟨x, hx, hxa⟩ := h.item a (hattempts ▸ ha)
    exact ⟨x, hitems x hx, hxa⟩
  · exact hmove.isPlaced (h.placed a (hattempts ▸ ha))

/-- A claim makes an attempt of a work item that exists, and it runs. -/
theorem Rooted.claim {request : ClaimWorkRequest} {queued : QueuedWorkRecord} (h : Rooted db)
    (hmove : Move db (.claim request queued) db') : Rooted db' := by
  have hcopy := hmove
  cases hmove with
  | claim hvalid hsession hqueued hallow hattempt hrunning =>
    rename_i attempts running
    have hattempts : ∀ a ∈ db.attempts, a ∈ attempts := fun a ha => (Table.mem_insert hattempt).2 (.inl ha)
    have hitem : ∃ x ∈ db.workItems, x.id = queued.id := ⟨_, (mem_listQueuedWorkForClaim hqueued).1, rfl⟩
    refine ⟨fun a ha => ?_, fun a ha => ?_, fun r hr => ?_,
      fun r hr => (h.completed r hr).mono (fun _ => id) hattempts,
      fun r hr => (h.failed r hr).mono (fun _ => id) hattempts⟩
    · rcases (Table.mem_insert hattempt).1 ha with ha | rfl
      · exact h.item a ha
      · exact hitem
    · rcases (Table.mem_insert hattempt).1 ha with ha | rfl
      · exact hcopy.isPlaced (h.placed a ha)
      · exact .inr (.inl ⟨_, (Table.mem_insert hrunning).2 (.inr rfl), rfl⟩)
    · rcases (Table.mem_insert hrunning).1 hr with hr | rfl
      · exact (h.running r hr).mono (fun _ => id) hattempts
      · exact ⟨hitem, _, (Table.mem_insert hattempt).2 (.inr rfl), rfl, rfl⟩

theorem Move.rooted (hmove : Move db e db') (h : Rooted db) : Rooted db' := by
  have hcopy := hmove
  cases hmove with
  | claim => exact h.claim hcopy
  | catalog | insertConstraint | enqueue | registerWorker | registerSession | heartbeat | endIdle =>
    exact h.of_move hcopy (fun _ => id) rfl h.running h.completed h.failed
  | insertItem hinsert =>
    exact h.of_move hcopy (fun _ hx => (Table.mem_insert hinsert).2 (.inl hx)) rfl h.running h.completed h.failed
  | complete hrunning hattempt howner hinsert =>
    refine h.of_move hcopy (fun _ => id) rfl (fun r hr => h.running r (Table.mem_delete.1 hr).1) (fun r hr => ?_)
      h.failed
    rcases (Table.mem_insert hinsert).1 hr with hr | rfl
    · exact h.completed r hr
    · simpa [CompleteAttemptRequest.completed, ← hattempt] using h.running _ hrunning
  | fail hrunning hattempt howner hinsert =>
    refine h.of_move hcopy (fun _ => id) rfl (fun r hr => h.running r (Table.mem_delete.1 hr).1) h.completed
      fun r hr => ?_
    rcases (Table.mem_insert hinsert).1 hr with hr | rfl
    · exact h.failed r hr
    · simpa [FailAttemptRequest.failed, ← hattempt] using h.running _ hrunning
  | stop | expireRequeue =>
    exact h.of_move hcopy (fun _ => id) rfl (fun r hr => h.running r (Table.mem_delete.1 hr).1) h.completed h.failed
  | expireFail hend hrunning hsession habandoned hcount hinsert =>
    refine h.of_move hcopy (fun _ => id) rfl (fun r hr => h.running r (Table.mem_delete.1 hr).1) h.completed
      fun r hr => ?_
    rcases (Table.mem_insert hinsert).1 hr with hr | rfl
    · exact h.failed r hr
    · exact h.running _ hrunning

/-! ### What the lists show -/

variable {x : WorkItemRecord}

theorem getWorkItem_mem (h : getWorkItem db w = some x) :
    x ∈ db.workItems ∧ x.id = w :=
  ⟨(Table.lookup_mem h).1, by simpa using (Table.lookup_mem h).2⟩

theorem getWorkItem_eq (h : x ∈ db.workItems) : getWorkItem db x.id = some x :=
  Table.lookup_eq_some (fun a b ha hb => by simp_all [Schema.workItems]) h (by simp)

/-- A queued work item is listed. -/
theorem exists_mem_listQueuedWorkItems (hx : x ∈ db.workItems) (h : IsQueued db x.id) :
    ∃ q ∈ listQueuedWorkItems db, q.id = x.id := by
  obtain ⟨row, hrow, hid⟩ := h
  refine ⟨⟨x, row.queuedAt⟩, ?_, rfl⟩
  rw [listQueuedWorkItems, listQueuedWorkForClaim, List.mem_insertionSort, queuedRecords, List.mem_filterMap]
  refine ⟨row, hrow, ?_⟩
  have hget : db.workItems.lookup (·.id == row.workItemId) = some x := by
    rw [show row.workItemId = x.id from hid]
    exact getWorkItem_eq hx
  rw [hget]
  rfl

theorem joinAttempt_mem {a : AttemptRecord} (h : joinAttempt db attemptId w = some (x, a))
    : x ∈ db.workItems ∧ x.id = w := by
  obtain ⟨y, hy, h⟩ := Option.bind_eq_some_iff.1 h
  obtain ⟨b, _, h⟩ := Option.bind_eq_some_iff.1 h
  cases h
  exact getWorkItem_mem hy

/-- The join of a row whose attempt is there finds it. -/
theorem AttemptOf.joinAttempt (h : AttemptOf db attemptId w) (hx : x ∈ db.workItems) (hid : x.id = w)
    : ∃ a, joinAttempt db attemptId w = some (x, a) := by
  obtain ⟨_, a, ha, haid, _⟩ := h
  have hattempt : db.attempts.lookup (·.attemptId == attemptId) = some a :=
    Table.lookup_eq_some (fun a b ha hb => by simp_all [Schema.attempts]) ha (by simpa using haid)
  refine ⟨a, ?_⟩
  unfold Persistence.joinAttempt
  rw [← hid, getWorkItem_eq hx, hattempt]
  rfl

/-- Running work is listed. -/
theorem Rooted.exists_mem_listRunningWork (h : Rooted db) (hx : x ∈ db.workItems) (hrunning : IsRunning db x.id)
    : ∃ r ∈ listRunningWork db, r.workItem = x := by
  obtain ⟨row, hrow, hid⟩ := hrunning
  obtain ⟨a, ha⟩ := (h.running row hrow).joinAttempt hx hid.symm
  refine ⟨⟨row.attemptId, x, coalesce row.workerId, coalesce row.workerSessionId, a.executorType, row.queuedAt,
    row.startedAt⟩, ?_, rfl⟩
  rw [listRunningWork, List.mem_insertionSort, List.mem_filterMap]
  exact ⟨row, hrow, by rw [ha]; rfl⟩

/-- A list that shows how the attempts of a run ended. -/
structure ShowsTerminal (db : Store) (runId : String) (terminal : List TerminalAttemptRecord) : Prop where
  /-- What is listed has happened. -/
  sound : ∀ t ∈ terminal, t.workItem ∈ db.workItems ∧ t.workItem.runId = runId ∧
    ((t.terminalState = .completed ∧ IsCompleted db t.workItem.id) ∨
      (t.terminalState = .failed ∧ IsFailed db t.workItem.id))
  /-- What was completed is listed. -/
  completed : ∀ x ∈ db.workItems, x.runId = runId → IsCompleted db x.id →
    ∃ t ∈ terminal, t.workItem = x ∧ t.terminalState = .completed
  /-- What has failed is listed. -/
  failed : ∀ x ∈ db.workItems, x.runId = runId → IsFailed db x.id →
    ∃ t ∈ terminal, t.workItem = x ∧ t.terminalState = .failed
  /-- What was completed has an output. -/
  output : ∀ t ∈ terminal, t.terminalState = .completed → t.outputJson ≠ ""

theorem mem_listTerminalAttemptsForRun {runId : String} {terminal : List TerminalAttemptRecord}
    (hlist : listTerminalAttemptsForRun db runId = .ok terminal) {t : TerminalAttemptRecord} :
    t ∈ terminal ↔ ((∃ r ∈ db.completedWork, r.terminal db = some t) ∨
      ∃ r ∈ db.failedWork, r.terminal db = some t) ∧ t.workItem.runId = runId := by
  unfold listTerminalAttemptsForRun at hlist
  split at hlist
  · cases hlist
  · cases hlist
    rw [List.mem_insertionSort, List.mem_filter, List.mem_append, List.mem_filterMap, List.mem_filterMap,
      beq_iff_eq]
    rfl

theorem Rooted.showsTerminal (h : Rooted db) {runId : String} {terminal : List TerminalAttemptRecord}
    (hlist : listTerminalAttemptsForRun db runId = .ok terminal) : ShowsTerminal db runId terminal := by
  have hmem := fun t => mem_listTerminalAttemptsForRun (t := t) hlist
  refine ⟨fun t ht => ?_, fun x hx hrun hdone => ?_, fun x hx hrun hdone => ?_, fun t ht hstate => ?_⟩
  · obtain ⟨⟨r, hr, hterminal⟩ | ⟨r, hr, hterminal⟩, hrun⟩ := (hmem t).1 ht
    all_goals
      obtain ⟨⟨x, a⟩, hjoin, rfl⟩ := Option.map_eq_some_iff.1 hterminal
      obtain ⟨hx, hid⟩ := joinAttempt_mem hjoin
      refine ⟨hx, hrun, ?_⟩
    · exact .inl ⟨rfl, r, hr, hid.symm⟩
    · exact .inr ⟨rfl, r, hr, hid.symm⟩
  · obtain ⟨r, hr, hid⟩ := hdone
    obtain ⟨a, ha⟩ := (h.completed r hr).joinAttempt hx hid.symm
    exact ⟨_, (hmem _).2 ⟨.inl ⟨r, hr, by rw [CompletedWorkRecord.terminal, ha]; rfl⟩, hrun⟩, rfl, rfl⟩
  · obtain ⟨r, hr, hid⟩ := hdone
    obtain ⟨a, ha⟩ := (h.failed r hr).joinAttempt hx hid.symm
    exact ⟨_, (hmem _).2 ⟨.inr ⟨r, hr, by rw [FailedWorkRecord.terminal, ha]; rfl⟩, hrun⟩, rfl, rfl⟩
  · obtain ⟨⟨r, hr, hterminal⟩ | ⟨r, hr, hterminal⟩, _⟩ := (hmem t).1 ht
    all_goals obtain ⟨⟨x, a⟩, _, rfl⟩ := Option.map_eq_some_iff.1 hterminal
    · have hvalid : Text.sqliteJsonValid r.outputJson = true := Table.check_of_mem hr
      rintro (hempty : r.outputJson = "")
      rw [hempty] at hvalid
      exact absurd hvalid (by decide)
    · cases hstate

/-! ### One outcome -/

/-- No work item has both outcomes. -/
def OneOutcome (db : Store) : Prop := ∀ w, ¬ (IsCompleted db w ∧ IsFailed db w)

/-- Only a running work item gets an outcome, and it has none yet. -/
theorem Move.oneOutcome (hmove : Move db e db') (hplaces : ∀ w, InOnePlace db w) (h : OneOutcome db) :
    OneOutcome db' := by
  have hrunning : ∀ r ∈ db.runningWork, ¬ IsFinished db r.workItemId := fun r hr hfinished =>
    (hplaces r.workItemId).2.2 ⟨⟨r, hr, rfl⟩, hfinished⟩
  cases hmove with
  | complete hr hattempt howner hinsert =>
    rintro w ⟨hcompleted, hfailed⟩
    rcases (Table.has_insert hinsert).1 hcompleted with hcompleted | rfl
    · exact h w ⟨hcompleted, hfailed⟩
    · exact hrunning _ hr (.inr hfailed)
  | fail hr hattempt howner hinsert | expireFail hend hr hsession habandoned hcount hinsert =>
    rintro w ⟨hcompleted, hfailed⟩
    rcases (Table.has_insert hinsert).1 hfailed with hfailed | rfl
    · exact h w ⟨hcompleted, hfailed⟩
    · exact hrunning _ hr (.inl hcompleted)
  | _ => exact h

/-! ### Workers beside a run -/

/-- What workers do by registering, claiming, showing that they live and leaving: nothing that is recorded
of a run changes, work leaves the queue only to run, and work that is not queued stays where it is. -/
structure Worked (s t : Store) : Prop where
  instances : t.workflowInstances = s.workflowInstances
  steps : t.dependencySteps = s.dependencySteps
  members : t.dependencyWorkItems = s.dependencyWorkItems
  facts : t.stepOutputFacts = s.stepOutputFacts
  items : t.workItems = s.workItems
  completed : t.completedWork = s.completedWork
  failed : t.failedWork = s.failedWork
  queued : ∀ w, IsQueued t w → IsQueued s w
  running : ∀ w, IsRunning s w → IsRunning t w
  attempted : ∀ w, IsAttempted s w → IsAttempted t w
  fresh : ∀ w, ¬ IsQueued s w → IsAttempted t w → IsAttempted s w
  placed : ∀ w, IsPlaced s w → IsPlaced t w
  rooted : Rooted s → Rooted t
  placement : (∀ w, InOnePlace s w) → ∀ w, InOnePlace t w

theorem Worked.refl (s : Store) : Worked s s := by
  constructor <;> first | rfl | exact fun _ => id | exact fun _ _ => id | exact id

theorem Worked.trans (s t u : Store) (h : Worked s t) (h' : Worked t u) : Worked s u where
  instances := h'.instances.trans h.instances
  steps := h'.steps.trans h.steps
  members := h'.members.trans h.members
  facts := h'.facts.trans h.facts
  items := h'.items.trans h.items
  completed := h'.completed.trans h.completed
  failed := h'.failed.trans h.failed
  queued w hw := h.queued w (h'.queued w hw)
  running w hw := h'.running w (h.running w hw)
  attempted w hw := h'.attempted w (h.attempted w hw)
  fresh w hq hw := h.fresh w hq (h'.fresh w (mt (h.queued w) hq) hw)
  placed w hw := h'.placed w (h.placed w hw)
  rooted hs := h'.rooted (h.rooted hs)
  placement hs := h'.placement (h.placement hs)

/-- The events of workers that register, claim, show that they live and leave. -/
def Event.ofWorker : Event → Bool
  | .registerWorker _ | .registerSession _ | .heartbeat _ | .claim _ _ | .endIdle _ => true
  | _ => false

theorem Move.worked (h : Move db e db') (he : e.ofWorker = true) : Worked db db' := by
  have hplaced : ∀ w, IsPlaced db w → IsPlaced db' w := fun _ => h.isPlaced
  have hroot := h.rooted
  have hplacement : (∀ w, InOnePlace db w) → ∀ w, InOnePlace db' w :=
    h.placement.exclusive (by cases e <;> trivial)
  cases h with
  | registerWorker | registerSession | heartbeat | endIdle =>
    exact ⟨rfl, rfl, rfl, rfl, rfl, rfl, rfl, fun _ => id, fun _ => id, fun _ => id, fun _ _ => id, hplaced, hroot,
      hplacement⟩
  | claim hvalid hsession hqueued hallow hattempt hrunning =>
    refine ⟨rfl, rfl, rfl, rfl, rfl, rfl, rfl, fun w => Table.has_delete_of_has, fun w hw => ?_, fun w hw => ?_,
      fun w hq hw => ?_, hplaced, hroot, hplacement⟩
    · exact (Table.has_insert hrunning).2 (.inl hw)
    · exact (Table.has_insert hattempt).2 (.inl hw)
    · rcases (Table.has_insert hattempt).1 hw with hw | rfl
      · exact hw
      · exact absurd (isQueued_of_mem_listQueuedWorkForClaim hqueued) hq
  | _ => cases he

/-! ### Work that is carried on -/

/-- Work is carried on beside the rows of a run: what is recorded of the run stays, only the work items in
`done` are newly completed, and every work item that is queued or has an attempt had one of the two before. -/
structure Carried (done : Set String) (s t : Store) : Prop where
  instances : t.workflowInstances = s.workflowInstances
  steps : t.dependencySteps = s.dependencySteps
  members : t.dependencyWorkItems = s.dependencyWorkItems
  facts : t.stepOutputFacts = s.stepOutputFacts
  items : t.workItems = s.workItems
  completed : ∀ w, IsCompleted t w ↔ IsCompleted s w ∨ w ∈ done
  failed : ∀ w, IsFailed s w → IsFailed t w
  recorded : Rooted s → ∀ w, IsQueued t w ∨ IsAttempted t w → IsQueued s w ∨ IsAttempted s w
  placed : ∀ w, IsPlaced s w → IsPlaced t w
  rooted : Rooted s → Rooted t
  placement : (∀ w, InOnePlace s w) → ∀ w, InOnePlace t w
  outcome : (∀ w, InOnePlace s w) → OneOutcome s → OneOutcome t

theorem Worked.carried {s t : Store} (h : Worked s t) : Carried ∅ s t where
  instances := h.instances
  steps := h.steps
  members := h.members
  facts := h.facts
  items := h.items
  completed w := by simp [IsCompleted, h.completed]
  failed w := by simp [IsFailed, h.failed]
  recorded _ w hw := by
    by_cases hq : IsQueued s w
    · exact .inl hq
    · exact .inr (hw.elim (fun hw => absurd (h.queued w hw) hq) (h.fresh w hq))
  placed := h.placed
  rooted := h.rooted
  placement := h.placement
  outcome _ hs w hw := hs w (by simpa [IsCompleted, IsFailed, h.completed, h.failed] using hw)

theorem Carried.refl (s : Store) : Carried ∅ s s := (Worked.refl s).carried

theorem Carried.trans (s t u : Store) (h : Carried ∅ s t) (h' : Carried ∅ t u) : Carried ∅ s u where
  instances := h'.instances.trans h.instances
  steps := h'.steps.trans h.steps
  members := h'.members.trans h.members
  facts := h'.facts.trans h.facts
  items := h'.items.trans h.items
  completed w := by rw [h'.completed, h.completed, or_assoc, or_self]
  failed w hw := h'.failed w (h.failed w hw)
  recorded hs w hw := h.recorded hs w (h'.recorded (h.rooted hs) w hw)
  placed w hw := h'.placed w (h.placed w hw)
  rooted hs := h'.rooted (h.rooted hs)
  placement hs := h'.placement (h.placement hs)
  outcome hs ho := h'.outcome (h.placement hs) (h.outcome hs ho)

/-- The events that carry work on. -/
def Event.carries : Event → Bool
  | .catalog | .insertItem _ | .insertConstraint _ | .enqueue _ => false
  | _ => true

/-- The work item that an event completes. -/
def Event.done : Event → Set String
  | .complete _ running => {running.workItemId}
  | _ => ∅

theorem Rooted.isAttempted_of_isRunning (h : Rooted db) (hw : IsRunning db w) : IsAttempted db w := by
  obtain ⟨r, hr, rfl⟩ := hw
  obtain ⟨_, a, ha, _, hid⟩ := h.running r hr
  exact ⟨a, ha, hid⟩

theorem Rooted.idle_of_not_isAttempted (h : Rooted db) {id : String} (hid : ¬ IsAttempted db id) :
    ¬ IsRunning db id ∧ ¬ IsFinished db id := by
  refine ⟨mt h.isAttempted_of_isRunning hid, ?_⟩
  rintro (⟨r, hr, rfl⟩ | ⟨r, hr, rfl⟩)
  · obtain ⟨_, a, ha, _, hw⟩ := h.completed r hr
    exact hid ⟨a, ha, hw⟩
  · obtain ⟨_, a, ha, _, hw⟩ := h.failed r hr
    exact hid ⟨a, ha, hw⟩

/-- Only a claim makes attempts, and it takes the work item from the queue. -/
theorem Move.isAttempted (h : Move db e db') (hw : IsAttempted db' w) :
    IsAttempted db w ∨ IsQueued db w := by
  cases h with
  | claim hvalid hsession hqueued hallow hattempt hrunning =>
    rcases (Table.has_insert hattempt).1 hw with hw | rfl
    · exact .inl hw
    · exact .inr (isQueued_of_mem_listQueuedWorkForClaim hqueued)
  | _ => exact .inl hw

theorem Move.carried (h : Move db e db') (he : e.carries = true) : Carried e.done db db' := by
  have hplaced : ∀ w, IsPlaced db w → IsPlaced db' w := fun _ => h.isPlaced
  have hroot := h.rooted
  have hplacement : (∀ w, InOnePlace db w) → ∀ w, InOnePlace db' w :=
    h.placement.exclusive (by cases e <;> trivial)
  have houtcome := h.oneOutcome
  have hfailed : ∀ w, IsFailed db w → IsFailed db' w := fun w hw => (h.placement.mem_failed (w := w)).2 (.inl hw)
  have hrecorded : Rooted db → ∀ w, IsQueued db' w ∨ IsAttempted db' w → IsQueued db w ∨ IsAttempted db w := by
    intro hdb w hw
    rcases hw with hw | hw
    · rcases (h.placement.mem_queued (w := w)).1 hw with ⟨hw, _⟩ | henqueue | hrequeue
      · exact .inl hw
      · cases e <;> cases henqueue
        cases he
      · exact .inr (hdb.isAttempted_of_isRunning (hrequeue ▸ h.placement).running_of_requeue)
    · exact (h.isAttempted hw).symm
  cases h with
  | complete hrunning hattempt howner hinsert =>
    refine ⟨rfl, rfl, rfl, rfl, rfl, fun w => ?_, hfailed, hrecorded, hplaced, hroot, hplacement, houtcome⟩
    refine (Table.has_insert hinsert).trans (or_congr_right ?_)
    exact eq_comm
  | claim | fail | registerWorker | registerSession | heartbeat | endIdle | stop | expireRequeue | expireFail =>
    exact ⟨rfl, rfl, rfl, rfl, rfl, fun w => (or_iff_left id).symm, hfailed, hrecorded, hplaced, hroot, hplacement, houtcome⟩
  | _ => cases he

end GoEtl.Persistence
