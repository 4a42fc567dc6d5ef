import Mathlib.Algebra.Order.BigOperators.Group.List
import GoEtl.Persistence.Admission
import GoEtl.Persistence.Placement

/-!
# Resource limits

A work item may ask for units of a resource, and is claimed only while what the running work has asked
for, together with its own request, stands in a given relation to a target. The check is made once, at
the claim, against the view that sums over the running work; nothing watches the sum afterwards.

## What is proved

**The limit holds at all times** (`running_units_le_limit`): if every constraint on a resource says `≤`
one limit, then from any state in which nothing runs, over every run of the store, the running work
never holds more units of it than the limit. Claims keep the sum below by their check, ends of attempts
lower it, and what could raise it behind the back of the claims is a constraint that is added to a
running item: the theorem asks that no call does that. The store does not prevent it
(`constraint_added_while_running`).
-/

namespace GoEtl.Persistence

open Library

variable {db db' : Store} {key : String}

/-! ### The units of one item -/

/-- The item's constraints on a resource. -/
def itemConstraints (db : Store) (key w : String) : List WorkItemResourceConstraintRecord :=
  db.resourceConstraints.rows.filter fun c => c.workItemId == w && c.resourceKey == key

/-- The units of a resource that the item requests. -/
def itemUnits (db : Store) (key w : String) : ℤ :=
  ((itemConstraints db key w).map fun c => c.requestedUnits.toInt).sum

/-- The units in use are the sum of what the running items request. -/
theorem runningUnits_eq (db : Store) (key : String) :
    runningUnits db key = (db.runningWork.rows.map fun r => itemUnits db key r.workItemId).sum := by
  unfold runningUnits runningConstraints
  rw [List.map_flatMap, List.flatMap_def, List.sum_flatten, List.map_map]
  rfl

/-- An item has no constraint on a resource, or one. -/
theorem itemConstraints_cases (db : Store) (key w : String) :
    itemConstraints db key w = [] ∨
      ∃ c ∈ db.resourceConstraints, c.workItemId = w ∧ c.resourceKey = key ∧ itemConstraints db key w = [c] := by
  have hcases := Table.filter_of_key (t := db.resourceConstraints)
    (p := fun c => c.workItemId == w && c.resourceKey == key) ?_
  · rcases hcases with ⟨hnil, _⟩ | ⟨c, hc, hp, hone⟩
    · exact .inl hnil
    · simp only [Bool.and_eq_true, beq_iff_eq] at hp
      exact .inr ⟨c, hc, hp.1, hp.2, hone⟩
  · intro a b ha hb
    simp only [Bool.and_eq_true, beq_iff_eq] at ha hb
    simp [Schema.resourceConstraints, ha.1, ha.2, hb.1, hb.2]

/-- Requested units are positive. -/
theorem requestedUnits_pos {c : WorkItemResourceConstraintRecord} (h : c ∈ db.resourceConstraints) :
    0 < c.requestedUnits.toInt := by
  have hcheck := Table.check_of_mem h
  simp only [Schema.resourceConstraints, Schema.unique_check, Schema.keyed_check, Bool.and_eq_true,
    decide_eq_true_eq, Int64.lt_iff_toInt_lt, Int64.toInt_zero] at hcheck
  exact hcheck.1.1.2

theorem itemUnits_nonneg (db : Store) (key w : String) : 0 ≤ itemUnits db key w := by
  unfold itemUnits
  rcases itemConstraints_cases db key w with hnil | ⟨c, hc, _, _, hone⟩
  · simp [hnil]
  · simpa [hone] using (requestedUnits_pos hc).le

/-! ### What a move does to the sum -/

/-- Every constraint on the resource says at most the limit. -/
def LimitedTo (key : String) (limit : ℕ) (db : Store) : Prop :=
  ∀ c ∈ db.resourceConstraints, c.resourceKey = key →
    c.operator = .lessThanOrEqual ∧ c.targetUnits.toInt = limit

instance (key : String) (limit : ℕ) (db : Store) : Decidable (LimitedTo key limit db) :=
  inferInstanceAs (Decidable (∀ c ∈ db.resourceConstraints.rows, _))

/-- Ends of attempts lower the sum. -/
theorem runningUnits_delete_le {n : ℤ} (hle : runningUnits db key ≤ n) {p : RunningRow → Bool}
    (hrunning : db'.runningWork = db.runningWork.delete p)
    (hconstraints : db'.resourceConstraints = db.resourceConstraints) : runningUnits db' key ≤ n := by
  have hitem : itemUnits db' key = itemUnits db key := by
    funext w
    rw [itemUnits, itemUnits, itemConstraints, itemConstraints, hconstraints]
  refine le_trans ?_ hle
  rw [runningUnits_eq, runningUnits_eq, hrunning, hitem, Table.rows_delete]
  refine List.Sublist.sum_le_sum (List.filter_sublist.map _) fun n hn => ?_
  obtain ⟨r, _, rfl⟩ := List.mem_map.1 hn
  exact itemUnits_nonneg db key r.workItemId

/-- A claim adds the item's units, which its check has compared with the limit. -/
theorem runningUnits_claim_le {limit : ℕ} {row : RunningRow} {running : Table Schema.runningWork}
    (hinsert : db.runningWork.insert row = .ok running) (hrunning : db'.runningWork = running)
    (hconstraints : db'.resourceConstraints = db.resourceConstraints) (hlimit : LimitedTo key limit db)
    (hallow : queuedResourceConstraintsAllow db row.workItemId = .ok true)
    (hle : runningUnits db key ≤ limit) : runningUnits db' key ≤ limit := by
  have hitem : itemUnits db' key = itemUnits db key := by
    funext w
    rw [itemUnits, itemUnits, itemConstraints, itemConstraints, hconstraints]
  have hsum : runningUnits db' key = runningUnits db key + itemUnits db key row.workItemId := by
    rw [runningUnits_eq, runningUnits_eq, hrunning, hitem, (Table.insert_ok hinsert).1]
    simp
  rcases itemConstraints_cases db key row.workItemId with hnil | ⟨c, hc, hw, hkey, hone⟩
  · have hzero : itemUnits db key row.workItemId = 0 := by simp [itemUnits, hnil]
    omega
  · have hunits : itemUnits db key row.workItemId = c.requestedUnits.toInt := by simp [itemUnits, hone]
    obtain ⟨hoperator, htarget⟩ := hlimit c hc hkey
    have hholds := (queuedResourceConstraintsAllow_true.1 hallow c hc hw).2.2
    rw [hkey, hoperator, htarget] at hholds
    rw [hsum, hunits]
    exact hholds

/-- A constraint of an item that does not run does not change the sum. -/
theorem runningUnits_insertConstraint {c : WorkItemResourceConstraintRecord}
    {constraints : Table Schema.resourceConstraints} (hinsert : db.resourceConstraints.insert c = .ok constraints)
    (hidle : c.resourceKey = key → ¬ IsRunning db c.workItemId) :
    runningUnits { db with resourceConstraints := constraints } key = runningUnits db key := by
  rw [runningUnits_eq, runningUnits_eq]
  refine congrArg List.sum (List.map_congr_left fun r hr => ?_)
  rw [itemUnits, itemUnits, itemConstraints, itemConstraints, Table.filter_insert ?_ hinsert]
  by_contra hselected
  simp only [Bool.not_eq_false, Bool.and_eq_true, beq_iff_eq] at hselected
  exact hidle hselected.2 ⟨r, hr, hselected.1.symm⟩

/-- The running work keeps within the limit, if every constraint names it. -/
def WithinLimit (key : String) (limit : ℕ) (db : Store) : Prop :=
  LimitedTo key limit db → runningUnits db key ≤ limit

/-- The event does not add a constraint on the resource to a running item. -/
def AddsIdle (key : String) (db : Store) (e : Event) : Prop :=
  ∀ c, e = .insertConstraint c → c.resourceKey = key →
    c ∈ db.resourceConstraints ∨ ¬ IsRunning db c.workItemId

theorem Move.withinLimit {limit : ℕ} {e : Event} (h : Move db e db') (hidle : AddsIdle key db e)
    (hdb : WithinLimit key limit db) : WithinLimit key limit db' := by
  intro hlimit
  cases h with
  | catalog | insertItem | enqueue | registerWorker | registerSession | heartbeat | endIdle =>
    exact hdb hlimit
  | insertConstraint hinsert =>
    have hbefore : LimitedTo key limit db := fun c hc => hlimit c ((Table.mem_insert hinsert).2 (.inl hc))
    rw [runningUnits_insertConstraint hinsert fun hkey => ?_]
    · exact hdb hbefore
    · rcases hidle _ rfl hkey with hold | hidle
      · exact absurd hold (Table.not_mem_of_insert (by simp [Schema.resourceConstraints]) hinsert)
      · exact hidle
  | claim hvalid hsession hqueued hallow hattempt hrunning =>
    exact runningUnits_claim_le hrunning rfl rfl hlimit hallow (hdb hlimit)
  | complete hrunning hattempt howner h | fail hrunning hattempt howner h =>
    exact runningUnits_delete_le (hdb hlimit) rfl rfl
  | stop hend hrunning hsession habandoned hqueued =>
    exact runningUnits_delete_le (hdb hlimit) rfl rfl
  | expireRequeue hend hrunning hsession habandoned hcount hqueued =>
    exact runningUnits_delete_le (hdb hlimit) rfl rfl
  | expireFail hend hrunning hsession habandoned hcount hfailed =>
    exact runningUnits_delete_le (hdb hlimit) rfl rfl

/-! ### Over whole runs -/

/-- The call adds no constraint on the resource to a running item. -/
def ConstrainsIdle (key : String) (db : Store) (call : Call) : Prop :=
  ∀ c ∈ call.op.constraints, c.resourceKey = key →
    c ∈ db.resourceConstraints ∨ ¬ IsRunning db c.workItemId

instance (db : Store) (call : Call) : Decidable (ConstrainsIdle key db call) :=
  inferInstanceAs (Decidable (∀ c ∈ call.op.constraints, _))

theorem withinLimit_step {limit : ℕ} {call : Call} (hidle : ConstrainsIdle key db call)
    (hdb : WithinLimit key limit db) : WithinLimit key limit (call.step db) := by
  refine Call.guarded_invariant (P := WithinLimit key limit) (G := AddsIdle key) ?_ ?_ ?_ ?_ hdb
  · intro s t e hsame hguard c he hkey
    rw [IsRunning, hsame.running]
    exact (hguard c he hkey).imp_left (hsame.constraints c)
  · rintro s e he c rfl
    cases he
  · intro s e t _ hguard hmove hs
    exact hmove.withinLimit hguard hs
  · rintro e hcause c rfl hkey
    exact hidle c (Op.causes_insertConstraint hcause) hkey

/-- **Resource limits hold globally.** Let every declared constraint on a resource say `≤` one limit.
From any database in which nothing runs, over every run of calls of which none adds a constraint on the
resource to an item that is running, the running work holds at most the limit's units. -/
theorem running_units_le_limit (key : String) (limit : ℕ) (start : Store)
    (hstart : ∀ r, r ∉ start.runningWork) (calls : List Call)
    (hidle : ∀ x ∈ trace Call.step start calls, ConstrainsIdle key x.1 x.2.1)
    (hlimit : LimitedTo key limit (run Call.step start calls)) :
    runningUnits (run Call.step start calls) key ≤ limit := by
  have hnothing : WithinLimit key limit start := by
    intro _
    have hrows : start.runningWork.rows = [] := List.eq_nil_iff_forall_not_mem.2 hstart
    rw [runningUnits_eq, hrows]
    simp
  exact run_invariant (P := WithinLimit key limit) (fun _ _ => withinLimit_step) hidle hnothing hlimit

open Sample

/-- Two items that each ask for two of three units, and two sessions that claim. -/
def Sample.twoOnDisk : List Call :=
  submission ++ [queue "a" 0 [onDisk "a" 2 3],
    queue "b" 1 [onDisk "b" 2 3], register "worker" "s0",
    register "worker" "s1", claim "t0" "worker" "s0", claim "t1" "worker" "s1"]

theorem running_units_le_limit_sample :
    runningUnits (run Call.step Store.empty twoOnDisk) "disk" ≤ (3 : ℕ) :=
  running_units_le_limit "disk" 3 Store.empty (fun _ => Table.not_mem_empty) twoOnDisk
    (by decide +kernel) (by decide +kernel)

/-- An item without constraints runs, and then gets one, beyond its own limit. -/
def Sample.lateConstraint : List Call :=
  submission ++ [queue "a" 0 [], register "worker" "s0",
    claim "t0" "worker" "s0", queue "b" 1 [onDisk "a" 2 1]]

theorem constraint_added_while_running :
    (∀ r, r ∉ Store.empty.runningWork) ∧ LimitedTo "disk" 1 (after lateConstraint) ∧
      runningUnits (after lateConstraint) "disk" = 2 :=
  ⟨fun _ => Table.not_mem_empty, by decide +kernel⟩

end GoEtl.Persistence
