import GoEtl.Persistence.Operations

/-!
# Where the work is

A work item waits in the queue, runs, or has finished with a completed or a failed attempt. The
abstract model of the store is just that: four sets of work items (`Placement`) and five ways to move
an item between them (`Placement.Step`): it is enqueued, claimed, completed, failed, or goes back to
the queue. `Move.placement` proves that the store's tables refine it: every elementary move of the
database is a step of the abstract model, or leaves the placement alone.

## What is proved

**Nothing is lost** (`placed_after_calls`): over every run, an item that was ever queued is queued,
running or finished after every call, and a call that fails leaves every item where it was.

**The places exclude each other** as long as nobody enqueues an item that is running or finished
(`exclusive_of_fresh_enqueues`). The store does not check that: `enqueueWorkItems` looks only at the
queue. Enqueueing a claimed item again is accepted (`requeued_while_running`).
-/

namespace GoEtl.Persistence

open Library

/-! ### The abstract model -/

/-- Where the work items are. -/
@[ext] structure Placement (α : Type*) where
  /-- The items in the queue. -/
  queued : Set α
  /-- The items that run. -/
  running : Set α
  /-- The items with a completed attempt. -/
  completed : Set α
  /-- The items with a failed attempt. -/
  failed : Set α

/-- What can happen to a work item. -/
inductive Placement.Action (α : Type*) where
  /-- Nothing. -/
  | stay
  /-- It is put in the queue. -/
  | enqueue (w : α)
  /-- It is taken from the queue and runs. -/
  | claim (w : α)
  /-- It stops running and has completed. -/
  | complete (w : α)
  /-- It stops running and has failed. -/
  | fail (w : α)
  /-- It stops running and is queued again. -/
  | requeue (w : α)

namespace Placement

variable {α : Type*} {p p' : Placement α} {a : Action α} {w : α}

/-- **The abstract steps.** Enqueueing is not guarded: it happens to an item wherever it is. -/
inductive Step : Placement α → Action α → Placement α → Prop where
  /-- Nothing moves. -/
  | stay (p : Placement α) : Step p .stay p
  /-- An item is added to the queue. -/
  | enqueue (p : Placement α) (w : α) : Step p (.enqueue w) { p with queued := insert w p.queued }
  /-- A queued item starts to run. -/
  | claim {p : Placement α} {w : α} (h : w ∈ p.queued) :
      Step p (.claim w) { p with queued := p.queued \ {w}, running := insert w p.running }
  /-- A running item completes. -/
  | complete {p : Placement α} {w : α} (h : w ∈ p.running) :
      Step p (.complete w) { p with running := p.running \ {w}, completed := insert w p.completed }
  /-- A running item fails. -/
  | fail {p : Placement α} {w : α} (h : w ∈ p.running) :
      Step p (.fail w) { p with running := p.running \ {w}, failed := insert w p.failed }
  /-- A running item goes back to the queue. -/
  | requeue {p : Placement α} {w : α} (h : w ∈ p.running) :
      Step p (.requeue w) { p with running := p.running \ {w}, queued := insert w p.queued }

/-- The items that have finished. -/
def finished (p : Placement α) : Set α := p.completed ∪ p.failed

/-- The items that are somewhere. -/
def placed (p : Placement α) : Set α := p.queued ∪ p.running ∪ p.finished

/-- No item is in two places. -/
def Exclusive (p : Placement α) : Prop :=
  ∀ w, ¬ (w ∈ p.queued ∧ w ∈ p.running) ∧ ¬ (w ∈ p.queued ∧ w ∈ p.finished) ∧
    ¬ (w ∈ p.running ∧ w ∈ p.finished)

/-- A step that does not enqueue a running or finished item. -/
def Action.Fresh (p : Placement α) : Action α → Prop
  | .enqueue w => w ∉ p.running ∧ w ∉ p.finished
  | _ => True

theorem Step.of_eq {q : Placement α} (h : Step p a q) (hq : p' = q) : Step p a p' := hq ▸ h

/-- The queue after a step. -/
theorem Step.mem_queued (h : Step p a p') :
    w ∈ p'.queued ↔ (w ∈ p.queued ∧ a ≠ .claim w) ∨ a = .enqueue w ∨ a = .requeue w := by
  cases h <;> simp [eq_comm, or_comm]

/-- The running work after a step. -/
theorem Step.mem_running (h : Step p a p') :
    w ∈ p'.running ↔
      (w ∈ p.running ∧ a ≠ .complete w ∧ a ≠ .fail w ∧ a ≠ .requeue w) ∨ a = .claim w := by
  cases h <;> simp [eq_comm, or_comm]

/-- The failed work after a step. -/
theorem Step.mem_failed (h : Step p a p') : w ∈ p'.failed ↔ w ∈ p.failed ∨ a = .fail w := by
  cases h <;> simp [eq_comm, or_comm]

/-- Only a queued item is claimed. -/
theorem Step.queued_of_claim (h : Step p (.claim w) p') : w ∈ p.queued := by
  cases h
  assumption

/-- Only a running item fails. -/
theorem Step.running_of_fail (h : Step p (.fail w) p') : w ∈ p.running := by
  cases h
  assumption

/-- Only a running item goes back to the queue. -/
theorem Step.running_of_requeue (h : Step p (.requeue w) p') : w ∈ p.running := by
  cases h
  assumption

/-- No step loses an item. -/
theorem Step.placed_subset (h : Step p a p') : p.placed ⊆ p'.placed := by
  intro x hx
  cases h <;> simp only [placed, finished, Set.mem_union, Set.mem_insert_iff, Set.mem_sdiff,
    Set.mem_singleton_iff] at hx ⊢ <;> tauto

/-- A fresh step keeps the places apart. -/
theorem Step.exclusive (h : Step p a p') (hfresh : a.Fresh p) (hp : p.Exclusive) : p'.Exclusive := by
  intro x
  have hx := hp x
  cases h with
  | stay => exact hx
  | enqueue w =>
    have hw : w ∉ p.running ∧ w ∉ p.finished := hfresh
    by_cases hxw : x = w
    · subst hxw
      simp_all [finished]
    · simpa [finished, hxw] using hx
  | claim hw | complete hw | fail hw | requeue hw =>
    rename_i w
    have hw' := hp w
    by_cases hxw : x = w
    · subst hxw
      simp_all [finished]
    · simpa [finished, hxw] using hx

end Placement

/-! ### The store's placement -/

/-- The work item is in the queue. -/
def IsQueued (db : Store) (w : String) : Prop := db.queuedWork.Has (·.workItemId) w

/-- An attempt on the work item runs. -/
def IsRunning (db : Store) (w : String) : Prop := db.runningWork.Has (·.workItemId) w

/-- The work item has a completed attempt. -/
def IsCompleted (db : Store) (w : String) : Prop := db.completedWork.Has (·.workItemId) w

/-- The work item has a failed attempt. -/
def IsFailed (db : Store) (w : String) : Prop := db.failedWork.Has (·.workItemId) w

instance (db : Store) (w : String) : Decidable (IsQueued db w) :=
  inferInstanceAs (Decidable (db.queuedWork.Has (·.workItemId) w))

instance (db : Store) (w : String) : Decidable (IsRunning db w) :=
  inferInstanceAs (Decidable (db.runningWork.Has (·.workItemId) w))

instance (db : Store) (w : String) : Decidable (IsCompleted db w) :=
  inferInstanceAs (Decidable (db.completedWork.Has (·.workItemId) w))

instance (db : Store) (w : String) : Decidable (IsFailed db w) :=
  inferInstanceAs (Decidable (db.failedWork.Has (·.workItemId) w))

/-- The abstract state of the database. -/
def Store.placement (db : Store) : Placement String :=
  ⟨{w | IsQueued db w}, {w | IsRunning db w}, {w | IsCompleted db w}, {w | IsFailed db w}⟩

/-- What an event does to the placement. -/
def Event.action : Event → Placement.Action String
  | .enqueue row => .enqueue row.workItemId
  | .claim _ queued => .claim queued.id
  | .complete _ running => .complete running.workItemId
  | .fail _ running => .fail running.workItemId
  | .stop _ running => .requeue running.workItemId
  | .expireRequeue _ running => .requeue running.workItemId
  | .expireFail _ running => .fail running.workItemId
  | _ => .stay

section Columns

variable {ρ κ : Type} {S : Schema ρ} {t t' : Table S} {r : ρ} {p : ρ → Bool} {f : ρ → κ} {c : κ}

theorem setOf_has_insert (h : t.insert r = .ok t') :
    {k | t'.Has f k} = insert (f r) {k | t.Has f k} := by
  ext k
  simp [Table.has_insert h, or_comm, eq_comm]

theorem setOf_has_insertOrIgnore (hkey : ∀ x, S.clash x r = true → f x = f r)
    (h : t.insertOrIgnore r = .ok t') : {k | t'.Has f k} = insert (f r) {k | t.Has f k} := by
  ext k
  simp [Table.has_insertOrIgnore hkey h, or_comm, eq_comm]

theorem setOf_has_delete (hp : ∀ x ∈ t, p x = true ↔ f x = c) :
    {k | (t.delete p).Has f k} = {k | t.Has f k} \ {c} := by
  ext k
  simp [Table.has_delete hp]

end Columns

variable {db : Store}

/-- An attempt's running row is the only one of its work item. -/
theorem attemptId_iff_workItemId {running : RunningRow} (h : running ∈ db.runningWork) :
    ∀ x ∈ db.runningWork, (x.attemptId == running.attemptId) = true ↔ x.workItemId = running.workItemId := by
  intro x hx
  rw [beq_iff_eq]
  constructor
  · intro hattempt
    rw [Table.eq_of_clash hx h (by simp [Schema.runningWork, hattempt])]
  · intro hitem
    rw [Table.eq_of_clash hx h (by simp [Schema.runningWork, hitem])]

/-- The queue in order is made of the queue rows whose work item exists. -/
theorem mem_listQueuedWorkForClaim {queued : QueuedWorkRecord} (h : queued ∈ listQueuedWorkForClaim db) :
    queued.toWorkItemRecord ∈ db.workItems ∧ ⟨queued.id, queued.queuedAt⟩ ∈ db.queuedWork := by
  unfold listQueuedWorkForClaim queuedRecords at h
  rw [List.mem_insertionSort, List.mem_filterMap] at h
  obtain ⟨row, hrow, hjoin⟩ := h
  obtain ⟨item, hitem, rfl⟩ := Option.map_eq_some_iff.1 hjoin
  obtain ⟨hmem, hid⟩ := Table.lookup_mem hitem
  exact ⟨hmem, by rw [beq_iff_eq.1 hid]; exact hrow⟩

theorem isQueued_of_mem_listQueuedWorkForClaim {queued : QueuedWorkRecord}
    (h : queued ∈ listQueuedWorkForClaim db) : IsQueued db queued.id :=
  ⟨_, (mem_listQueuedWorkForClaim h).2, rfl⟩

/-- **The database refines the abstract model**: every move is a step of it. -/
theorem Move.placement {db' : Store} {e : Event} (h : Move db e db') :
    Placement.Step db.placement e.action db'.placement := by
  have hqueueKey : ∀ (w at' : String) (x : QueuedRow),
      Schema.queuedWork.clash x ⟨w, at'⟩ = true → x.workItemId = w := fun _ _ _ => Schema.keyed_clash.1
  cases h with
  | catalog | insertItem | insertConstraint | registerWorker | registerSession | heartbeat | endIdle =>
    exact .stay _
  | enqueue h =>
    have h₁ := setOf_has_insert (f := QueuedRow.workItemId) h
    exact (Placement.Step.enqueue db.placement _).of_eq (Placement.ext h₁ rfl rfl rfl)
  | claim hvalid hsession hqueued hallow hattempt hrunning =>
    rename_i request queued _ _
    have hq := isQueued_of_mem_listQueuedWorkForClaim hqueued
    have h₁ := setOf_has_delete (t := db.queuedWork) (f := QueuedRow.workItemId) (c := queued.id)
      fun x _ => beq_iff_eq
    have h₂ := setOf_has_insert (f := RunningRow.workItemId) hrunning
    exact (Placement.Step.claim (p := db.placement) hq).of_eq (Placement.ext h₁ h₂ rfl rfl)
  | complete hrunning hattempt howner h =>
    have h₁ := setOf_has_delete (f := RunningRow.workItemId) (attemptId_iff_workItemId hrunning)
    have h₂ := setOf_has_insert (f := CompletedWorkRecord.workItemId) h
    exact (Placement.Step.complete (p := db.placement) ⟨_, hrunning, rfl⟩).of_eq
      (Placement.ext rfl h₁ h₂ rfl)
  | stop hend hrunning hsession habandoned hqueued | expireRequeue hend hrunning hsession habandoned _ hqueued =>
    have h₁ := setOf_has_delete (f := RunningRow.workItemId) (attemptId_iff_workItemId hrunning)
    have h₂ := setOf_has_insertOrIgnore (f := QueuedRow.workItemId) (hqueueKey _ _) hqueued
    exact (Placement.Step.requeue (p := db.placement) ⟨_, hrunning, rfl⟩).of_eq
      (Placement.ext h₂ h₁ rfl rfl)
  | fail hrunning hattempt howner hfailed | expireFail hend hrunning hsession habandoned hcount hfailed =>
    have h₁ := setOf_has_delete (f := RunningRow.workItemId) (attemptId_iff_workItemId hrunning)
    have h₂ := setOf_has_insert (f := FailedWorkRecord.workItemId) hfailed
    exact (Placement.Step.fail (p := db.placement) ⟨_, hrunning, rfl⟩).of_eq
      (Placement.ext rfl h₁ rfl h₂)

/-! ### No work is lost -/

/-- The work item has finished: it has a completed or a failed attempt. -/
def IsFinished (db : Store) (w : String) : Prop := IsCompleted db w ∨ IsFailed db w

instance (db : Store) (w : String) : Decidable (IsFinished db w) := inferInstanceAs (Decidable (_ ∨ _))

/-- The work item is somewhere. -/
def IsPlaced (db : Store) (w : String) : Prop := IsQueued db w ∨ IsRunning db w ∨ IsFinished db w

theorem mem_placed {w : String} : w ∈ db.placement.placed ↔ IsPlaced db w := by
  simp only [Placement.placed, Placement.finished, Store.placement, IsPlaced, IsFinished, Set.mem_union,
    Set.mem_ofPred_eq, or_assoc]

/-- No move loses an item. -/
theorem Move.isPlaced {db' : Store} {e : Event} (h : Move db e db') {w : String} (hw : IsPlaced db w) :
    IsPlaced db' w := by
  rw [← mem_placed] at hw ⊢
  exact h.placement.placed_subset hw

/-- **No work is lost**: an item that was in the queue after some calls is queued, running or finished
after any further calls, and a call that returns an error leaves the whole database as it was. -/
theorem placed_after_calls :
    (∀ (earlier later : List Call) (w : String), IsQueued (after earlier) w →
      IsPlaced (after (earlier ++ later)) w) ∧
    ∀ (calls : List Call) (call : Call), call.fails (after calls) → after (calls ++ [call]) = after calls := by
  refine ⟨fun earlier later w hw => ?_, fun calls call hfail => ?_⟩
  · exact invariant_later (P := fun db => IsPlaced db w) (fun _ _ _ hmove => hmove.isPlaced) (.inl hw) later
  · rw [after, run_append]
    exact Call.step_of_fails hfail

open Sample

/-- A claimed item is still somewhere after its session expired; a claim of a dead session fails and
changes nothing. -/
theorem placed_after_expiry :
    IsPlaced (after ((submission ++ [queue "a" 0 []]) ++
      [register "worker" "session", claim "attempt" "worker" "session", expire])) "a" ∧
    after ((submission ++ [register "worker" "session", expire]) ++
        [claim "attempt" "worker" "session"]) =
      after (submission ++ [register "worker" "session", expire]) :=
  ⟨placed_after_calls.1 _ _ _ (by decide +kernel),
    placed_after_calls.2 _ _ ⟨.workerSessionNotActive, by decide +kernel⟩⟩

/-! ### The places exclude each other -/

/-- The work item is in at most one of the queue, the running work and the finished work. -/
def InOnePlace (db : Store) (w : String) : Prop :=
  ¬ (IsQueued db w ∧ IsRunning db w) ∧ ¬ (IsQueued db w ∧ IsFinished db w) ∧
    ¬ (IsRunning db w ∧ IsFinished db w)

instance (db : Store) (w : String) : Decidable (InOnePlace db w) := inferInstanceAs (Decidable (_ ∧ _))

theorem exclusive_placement : db.placement.Exclusive ↔ ∀ w, InOnePlace db w := Iff.rfl

theorem inOnePlace_empty (w : String) : InOnePlace Store.empty w := by
  simp [InOnePlace, IsQueued, IsRunning, IsFinished, IsCompleted, IsFailed, Store.empty]

/-- The call asks to enqueue only work items that neither run nor have finished. -/
def EnqueuesFresh (db : Store) (call : Call) : Prop :=
  ∀ q ∈ call.op.enqueues, ¬ IsRunning db q.id ∧ ¬ IsFinished db q.id

instance (db : Store) (call : Call) : Decidable (EnqueuesFresh db call) :=
  inferInstanceAs (Decidable (∀ q ∈ call.op.enqueues, _))

/-- A call that enqueues only fresh items keeps the places apart. -/
theorem exclusive_step {call : Call} (hfresh : EnqueuesFresh db call)
    (hdb : ∀ w, InOnePlace db w) : ∀ w, InOnePlace (call.step db) w := by
  refine exclusive_placement.1 (Call.guarded_invariant (P := fun s => s.placement.Exclusive)
    (G := fun s e => e.action.Fresh s.placement) ?_ ?_ ?_ ?_ (exclusive_placement.2 hdb))
  · intro s t e hsame hfresh
    cases e with
    | enqueue row =>
      show ¬ IsRunning t row.workItemId ∧ ¬ IsFinished t row.workItemId
      rw [IsRunning, IsFinished, IsCompleted, IsFailed, hsame.running, hsame.completed, hsame.failed]
      exact hfresh
    | _ => trivial
  · intro s e he
    cases e with
    | enqueue row => cases he
    | _ => trivial
  · intro s e t _ hfresh hmove hs
    exact hmove.placement.exclusive hfresh hs
  · intro e hcause
    cases e with
    | enqueue row =>
      obtain ⟨q, hq, rfl⟩ := Op.causes_enqueue hcause
      exact hfresh q hq
    | _ => trivial

/-- **Each work item is in at most one place**, in every run whose calls enqueue only work items that
are neither running nor finished at that moment. -/
theorem exclusive_of_fresh_enqueues (calls : List Call)
    (hfresh : ∀ x ∈ steps calls, EnqueuesFresh x.1 x.2.1) (w : String) : InOnePlace (after calls) w :=
  run_invariant (P := fun db => ∀ w, InOnePlace db w) (C := EnqueuesFresh)
    (fun _ _ => exclusive_step) hfresh inOnePlace_empty w

/-- The item of a run that queues, claims and completes it is in one place. -/
theorem exclusive_after_completion :
    InOnePlace (after (submission ++ [queue "a" 0 [], register "worker" "session",
      claim "attempt" "worker" "session", completeAs "attempt" "worker" "session"])) "a" :=
  exclusive_of_fresh_enqueues _ (by decide +kernel) _

/-- A claimed item that is enqueued once more is in the queue while it runs, and one that is enqueued
after it completed is in the queue again. -/
theorem requeued_while_running :
    (let calls := submission ++ [queue "a" 0 [], register "worker" "session",
        claim "attempt" "worker" "session"]
      let again : Call := ⟨true, .enqueueWorkItems [queued "a" 0 (second 5)]⟩
      let complete := completeAs "attempt" "worker" "session"
      (IsQueued (after (calls ++ [again])) "a" ∧ IsRunning (after (calls ++ [again])) "a") ∧
        IsQueued (after (calls ++ [complete, again])) "a" ∧
        IsCompleted (after (calls ++ [complete, again])) "a") := by
  decide +kernel

end GoEtl.Persistence
