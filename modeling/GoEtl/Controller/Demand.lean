import GoEtl.Controller.Startup
import GoEtl.Controller.WorkerExecution
import GoEtl.Persistence.Progress

/-!
# Worker demand

How many workers to start is decided by the number of queued items that could be claimed
(`cmd/controller/worker_execution.go`, `workerDemand`), and the controller's status shows how many of the queued
items with resource constraints are eligible and how many are blocked (`persistenceControllerStatus`). Both read the
checks of the whole queue from one view and evaluate them item by item; a claim reads the checks of one item at a
time and stops at the first item that is allowed.

## What is proved

Each of the three evaluations says of an item whether it is `Allowed`, as long as the units fit in 64 bits
(`queuedResourceConstraintsAllow_eq`, `checksAllow_eq`, `keyedChecksAllow_eq`). So **demand and claims agree**
(`demand_counts_claims`), unless an item of the queue is also running: it is counted, and it makes every claim fail
(`counted_but_not_claimed`).
-/

namespace GoEtl.Controller

open Library Model Persistence Text

/-! ### The demand -/

/-- The checks of a work item: an entry of `checksByWorkItem`. -/
def checksOf (checks : List QueuedResourceConstraintCheckRecord) (workItemId : String) : List ResourceConstraintCheck :=
  (checks.filter (·.workItemId == workItemId)).map (·.check)

/-- The loop of `workerDemand` over `checksByWorkItem`. The source ranges over a map; its order decides only which of
several errors is returned. -/
def countBlocked (checks : List QueuedResourceConstraintCheckRecord) : List String → Except String ℕ
  | [] => .ok 0
  | workItemId :: rest => do
    let allowed ← wrapError ("evaluate resource constraints for " ++ workItemId)
      (Model.resourceConstraintChecksAllow (checksOf checks workItemId))
    let blocked ← countBlocked checks rest
    pure (if allowed then blocked else blocked + 1)

/-- The part of `workerDemand` after the reads. -/
def demandOf (queued : List QueuedWorkRecord) (running : List RunningWorkRecord)
    (checks : List QueuedResourceConstraintCheckRecord) (live : List WorkerSessionRecord) : Except String WorkerDemand := do
  let checks := checks.filter fun check => queued.any (·.id == check.workItemId)
  let blocked ← countBlocked checks (checks.map (·.workItemId)).dedup
  pure ⟨queued.length, queued.length - blocked, running.length, live.length⟩

/-- `ListQueuedResourceConstraintChecks`, with its error as a text. -/
def queuedChecks (rt : Runtime) (context : String) : Ctl (List QueuedResourceConstraintCheckRecord) :=
  withContext context ((queryOrFail listQueuedResourceConstraintChecks).mapError rt.errorText)

/-- `workerDemand`; the cutoff of live sessions is `now - deadAfter`, if `deadAfter` is positive. -/
def workerDemand (rt : Runtime) (cutoff : Option Instant) : Ctl WorkerDemand := do
  let queued ← query listQueuedWorkItems
  let running ← query listRunningWork
  let checks ← queuedChecks rt "list queued resource constraint checks"
  let live ← match cutoff with
    | some time => query (listLiveWorkerSessions · time)
    | none => pure []
  .ofExcept (demandOf queued running checks live)

/-! ### The status -/

/-- `ResourceConstraintSummary`. -/
structure ResourceConstraintSummary where
  resourceKey : String
  totalUnits : Int64
  blockedCandidateCount : ℕ
  deriving DecidableEq

/-- The fields of `ControllerStatus` that are set. -/
structure ControllerStatus where
  (pending assigned failed : ℕ)
  (queuedResourceEligibleCount queuedResourceBlockedCount runningResourceClaimCount : ℕ)
  resourceConstraintSummaries : List ResourceConstraintSummary
  deriving DecidableEq

/-- The checks of a work item with their resources: an entry of `resourceConstraintChecks`. -/
def keyedChecksOf (checks : List QueuedResourceConstraintCheckRecord) (workItemId : String) :
    List (String × ResourceConstraintCheck) :=
  (checks.filter (·.workItemId == workItemId)).map fun check => (check.resourceKey, check.check)

/-- The loop of `resourceConstraintChecksAllow`: the resources of the checks that say no. -/
def blockedKeys : List (String × ResourceConstraintCheck) → Except String (List String)
  | [] => .ok []
  | (key, check) :: rest => do
    let allowed ← check.allows
    let blocked ← blockedKeys rest
    pure (if allowed then blocked else key :: blocked)

/-- `resourceConstraintChecksAllow`. -/
def resourceConstraintChecksAllow (checks : List (String × ResourceConstraintCheck)) :
    Except String (Bool × List String) := do
  let blocked ← blockedKeys checks
  pure (blocked.isEmpty, blocked.dedup)

/-- What the loop over the queue counts. -/
structure QueueTally where
  (constrained eligible blocked : ℕ)
  /-- The blocked items, each with a resource that blocks it. -/
  blockedBy : List (String × String)

/-- The loop of `persistenceControllerStatus` over the queue. -/
def tallyQueue (checks : List QueuedResourceConstraintCheckRecord) : List QueuedWorkRecord → Except String QueueTally
  | [] => .ok ⟨0, 0, 0, []⟩
  | item :: items =>
    if (keyedChecksOf checks item.id).isEmpty then tallyQueue checks items
    else do
      let (allowed, keys) ← wrapError ("queued resource checks for work item " ++ item.id)
        (resourceConstraintChecksAllow (keyedChecksOf checks item.id))
      let rest ← tallyQueue checks items
      if allowed then pure { rest with constrained := rest.constrained + 1, eligible := rest.eligible + 1 }
      else
        pure
          { rest with
            constrained := rest.constrained + 1, blocked := rest.blocked + 1,
            blockedBy := keys.map (item.id, ·) ++ rest.blockedBy }

/-- The loop of `persistenceControllerStatus` over the running work. -/
def countClaims : List RunningWorkRecord → Ctl ℕ
  | [] => pure 0
  | work :: rest => do
    let records ← withContext ("list running resource constraints for work item " ++ work.workItem.id)
      (queryOrFail (listWorkItemResourceConstraints · work.workItem.id))
    let claims ← countClaims rest
    pure (if records.isEmpty then claims else claims + 1)

/-- The order of the summaries: the most blocked items first, then the most units, then by the resource. -/
def ResourceConstraintSummary.before (a b : ResourceConstraintSummary) : Prop :=
  b.blockedCandidateCount < a.blockedCandidateCount ∨ (a.blockedCandidateCount = b.blockedCandidateCount ∧
    (b.totalUnits < a.totalUnits ∨ (a.totalUnits = b.totalUnits ∧ a.resourceKey ≤ b.resourceKey)))

instance : DecidableRel ResourceConstraintSummary.before := fun _ _ => inferInstanceAs (Decidable (_ ∨ _))

/-- The summary of a resource; the units are those of the last check that names it. -/
def summaryOf (checks : List QueuedResourceConstraintCheckRecord) (blockedBy : List (String × String)) (key : String) :
    ResourceConstraintSummary where
  resourceKey := key
  totalUnits := ((checks.filter (·.resourceKey == key)).getLast?.map (·.check.totalUnits)).getD 0
  blockedCandidateCount := ((blockedBy.filter (·.2 == key)).map (·.1)).dedup.length

/-- `summarizeResourceConstraints`. -/
def summarizeResourceConstraints (checks : List QueuedResourceConstraintCheckRecord)
    (blockedBy : List (String × String)) : List ResourceConstraintSummary :=
  (((checks.map (·.resourceKey)).dedup.map (summaryOf checks blockedBy)).filter
    (·.blockedCandidateCount != 0)).insertionSort (·.before ·)

/-- `maxResourceConstraintSummaries`. -/
def maxResourceConstraintSummaries : ℕ := 5

/-- `persistenceControllerStatus`. -/
def persistenceControllerStatus (rt : Runtime) : Ctl ControllerStatus := do
  let queued ← query listQueuedWorkItems
  let running ← query listRunningWork
  let runs ← query listActiveWorkflowRuns
  let checks ← queuedChecks rt "list queued resource checks"
  let tally ← .ofExcept (tallyQueue checks queued)
  let claims ← countClaims running
  let failed ← sumFailed runs
  pure ⟨queued.length, running.length, failed, tally.eligible, tally.blocked, claims,
    if 0 < tally.constrained ∨ 0 < claims then
      (summarizeResourceConstraints checks tally.blockedBy).take maxResourceConstraintSummaries
    else []⟩

/-! ### Three evaluations of one condition -/

section

variable {db : Store} {checks : List QueuedResourceConstraintCheckRecord} {workItemId : String}

theorem mem_queuedConstraints {row : QueuedRow} {c : WorkItemResourceConstraintRecord} :
    (row, c) ∈ (queuedConstraints db).insertionSort checkBefore ↔
      row ∈ db.queuedWork ∧ c ∈ db.resourceConstraints ∧ c.workItemId = row.workItemId := by
  rw [List.mem_insertionSort, queuedConstraints, List.mem_flatMap]
  constructor
  · rintro ⟨row', hrow, h⟩
    obtain ⟨c', hc, h⟩ := List.mem_map.1 h
    cases h
    obtain ⟨hc, hid⟩ := List.mem_filter.1 hc
    exact ⟨hrow, hc, by simpa using hid⟩
  · rintro ⟨hrow, hc, hid⟩
    exact ⟨row, hrow, List.mem_map.2 ⟨c, List.mem_filter.2 ⟨hc, by simpa using hid⟩, rfl⟩⟩

theorem queuedCheck_ok {row : QueuedRow} {c : WorkItemResourceConstraintRecord}
    {record : QueuedResourceConstraintCheckRecord} : queuedCheck db (row, c) = .ok record ↔
      ∃ check, constraintCheck db c = .ok check ∧
        record = ⟨row.workItemId, row.queuedAt, c.constraintIndex, c.resourceKey, check⟩ := by
  rw [queuedCheck, except_bind_ok]
  constructor
  · rintro ⟨check, hcheck, h⟩
    cases h
    exact ⟨check, hcheck, rfl⟩
  · rintro ⟨check, hcheck, rfl⟩
    exact ⟨check, hcheck, rfl⟩

theorem listQueuedResourceConstraintChecks_ok : listQueuedResourceConstraintChecks db = .ok checks ↔
    ((queuedConstraints db).insertionSort checkBefore).mapM (queuedCheck db) = .ok checks := by
  unfold listQueuedResourceConstraintChecks
  cases ((queuedConstraints db).insertionSort checkBefore).mapM (queuedCheck db) <;> simp [Except.mapError]

/-- The view can be read when the units in use fit. -/
theorem exists_queuedChecks (hfit : ∀ row ∈ db.queuedWork, UnitsFit db row.workItemId) :
    ∃ checks, listQueuedResourceConstraintChecks db = .ok checks := by
  have hcheck : ∀ pair ∈ (queuedConstraints db).insertionSort checkBefore, ∃ record, queuedCheck db pair = .ok record := by
    rintro ⟨row, c⟩ hpair
    obtain ⟨hrow, hc, hid⟩ := mem_queuedConstraints.1 hpair
    obtain ⟨check, hcheck, _⟩ := (hfit row hrow).check_answers hc hid
    exact ⟨_, queuedCheck_ok.2 ⟨check, hcheck, rfl⟩⟩
  obtain ⟨checks, hchecks⟩ := exists_mapM hcheck
  exact ⟨checks, listQueuedResourceConstraintChecks_ok.2 hchecks⟩

/-- The resources that block are those of the checks that say no. -/
theorem blockedKeys_of_answers {keyed : List (String × ResourceConstraintCheck)}
    (h : ∀ pair ∈ keyed, ∃ b, pair.2.allows = .ok b) :
    ∃ blocked, blockedKeys keyed = .ok blocked ∧ (blocked = [] ↔ ∀ pair ∈ keyed, pair.2.allows = .ok true) := by
  induction keyed with
  | nil => exact ⟨[], rfl, by simp⟩
  | cons pair keyed ih =>
    rw [List.forall_mem_cons] at h
    obtain ⟨b, hb⟩ := h.1
    obtain ⟨blocked, hblocked, hnil⟩ := ih h.2
    refine ⟨if b then blocked else pair.1 :: blocked, ?_, ?_⟩
    · rw [blockedKeys, hb, hblocked]
      rfl
    · rw [List.forall_mem_cons, hb, ← hnil]
      cases b <;> simp

section Queued

variable (hchecks : listQueuedResourceConstraintChecks db = .ok checks) (hqueued : IsQueued db workItemId)

include hchecks hqueued

/-- The rows of the view for a queued item are those of its constraints. -/
theorem forall_checks {P : ResourceConstraintCheck → Prop} :
    (∀ record ∈ checks, record.workItemId = workItemId → P record.check) ↔
      ∀ c ∈ db.resourceConstraints, c.workItemId = workItemId → ∃ check, constraintCheck db c = .ok check ∧ P check := by
  rw [listQueuedResourceConstraintChecks_ok] at hchecks
  obtain ⟨row, hrow, hrowId⟩ := hqueued
  rw [mapM_forall hchecks]
  constructor
  · intro h c hc hid
    obtain ⟨record, hrecord, hP⟩ := h (row, c) (mem_queuedConstraints.2 ⟨hrow, hc, hid.trans hrowId.symm⟩)
    obtain ⟨check, hcheck, rfl⟩ := queuedCheck_ok.1 hrecord
    exact ⟨check, hcheck, hP hrowId⟩
  · rintro h ⟨row', c⟩ hpair
    obtain ⟨_, hc, hid⟩ := mem_queuedConstraints.1 hpair
    obtain ⟨record, hrecord, _⟩ := (mapM_forall hchecks (P := fun _ => True)).1 (fun _ _ => trivial) _ hpair
    obtain ⟨check, hcheck, rfl⟩ := queuedCheck_ok.1 hrecord
    refine ⟨_, hrecord, fun hrow' => ?_⟩
    obtain ⟨check', hcheck', hP⟩ := h c hc (hid.trans hrow')
    rw [hcheck] at hcheck'
    cases hcheck'
    exact hP

theorem forall_checksOf {P : ResourceConstraintCheck → Prop} :
    (∀ check ∈ checksOf checks workItemId, P check) ↔
      ∀ c ∈ db.resourceConstraints, c.workItemId = workItemId → ∃ check, constraintCheck db c = .ok check ∧ P check := by
  rw [← forall_checks hchecks hqueued, checksOf, List.forall_mem_map]
  simp [List.mem_filter]

/-- All the checks of a queued item say yes exactly when the item is allowed. -/
theorem checksOf_allow :
    (∀ check ∈ checksOf checks workItemId, check.allows = .ok true) ↔ Allowed db workItemId := by
  rw [forall_checksOf hchecks hqueued]
  simp only [Allowed, admits_iff]

theorem checksOf_answer (hfit : UnitsFit db workItemId) :
    ∀ check ∈ checksOf checks workItemId, ∃ b, check.allows = .ok b := by
  rw [forall_checksOf hchecks hqueued]
  exact fun c hc hid => hfit.check_answers hc hid

/-- What the demand evaluates. -/
theorem checksAllow_eq (hfit : UnitsFit db workItemId) :
    Model.resourceConstraintChecksAllow (checksOf checks workItemId) = .ok (decide (Allowed db workItemId)) := by
  obtain ⟨b, hb⟩ : ∃ b, Model.resourceConstraintChecksAllow (checksOf checks workItemId) = .ok b :=
    resourceConstraintChecksAllowFrom_of_answers (checksOf_answer hchecks hqueued hfit)
  have htrue : b = true ↔ Allowed db workItemId := by
    rw [← checksOf_allow hchecks hqueued, ← resourceConstraintChecksAllow_true, hb, Except.ok.injEq]
  rw [hb, Except.ok.injEq, Bool.eq_iff_iff, htrue, decide_eq_true_iff]

/-- What the status evaluates. -/
theorem keyedChecksAllow_eq (hfit : UnitsFit db workItemId) :
    ∃ keys, resourceConstraintChecksAllow (keyedChecksOf checks workItemId) =
      .ok (decide (Allowed db workItemId), keys) := by
  have hall : ∀ P : ResourceConstraintCheck → Prop, (∀ pair ∈ keyedChecksOf checks workItemId, P pair.2) ↔
      ∀ check ∈ checksOf checks workItemId, P check := by
    intro P
    rw [keyedChecksOf, checksOf, List.forall_mem_map, List.forall_mem_map]
  obtain ⟨blocked, hblocked, hnil⟩ := blockedKeys_of_answers
    ((hall fun check => ∃ b, check.allows = .ok b).2 (checksOf_answer hchecks hqueued hfit))
  rw [hall fun check => check.allows = .ok true, checksOf_allow hchecks hqueued] at hnil
  have hempty : blocked.isEmpty = decide (Allowed db workItemId) := by
    rw [Bool.eq_iff_iff, List.isEmpty_iff, hnil, decide_eq_true_iff]
  refine ⟨blocked.dedup, ?_⟩
  rw [resourceConstraintChecksAllow, hblocked, ← hempty]
  rfl

/-- A queued item has checks exactly when it has constraints. -/
theorem keyedChecksOf_isEmpty :
    (keyedChecksOf checks workItemId).isEmpty = !db.resourceConstraints.any (·.workItemId == workItemId) := by
  have hnone := forall_checks hchecks hqueued (P := fun _ => False)
  rw [Bool.eq_iff_iff, List.isEmpty_iff, keyedChecksOf, List.map_eq_nil_iff, List.filter_eq_nil_iff]
  simp only [and_false, exists_false] at hnone
  simp [hnone, Table.any_eq_false]

end Queued

/-! ### Counting the queue -/

/-- The items of the queue are different. -/
theorem nodup_listQueuedWorkItems (db : Store) : ((listQueuedWorkItems db).map (·.id)).Nodup := by
  have hperm : ((listQueuedWorkItems db).map (·.id)).Perm ((queuedRecords db).map (·.id)) :=
    (List.perm_insertionSort _ _).map _
  rw [hperm.nodup_iff, List.Nodup, List.pairwise_map, queuedRecords, List.pairwise_filterMap]
  refine db.queuedWork.distinct.imp fun {a b} hclash x hx y hy hid => ?_
  obtain ⟨item, hitem, rfl⟩ := Option.map_eq_some_iff.1 hx
  obtain ⟨item', hitem', rfl⟩ := Option.map_eq_some_iff.1 hy
  have ha := beq_iff_eq.1 (Table.lookup_mem hitem).2
  have hb := beq_iff_eq.1 (Table.lookup_mem hitem').2
  have hsame : a.workItemId = b.workItemId := ha.symm.trans (hid.trans hb)
  exact absurd (Schema.keyed_clash.2 hsame) (Bool.eq_false_iff.1 hclash)

/-- The loop over the items with checks counts those that are not allowed. -/
theorem countBlocked_eq {ids : List String}
    (h : ∀ id ∈ ids, Model.resourceConstraintChecksAllow (checksOf checks id) = .ok (decide (Allowed db id))) :
    countBlocked checks ids = .ok (ids.countP fun id => !decide (Allowed db id)) := by
  induction ids with
  | nil => rfl
  | cons id ids ih =>
    rw [List.forall_mem_cons] at h
    rw [countBlocked, h.1, ih h.2, List.countP_cons]
    by_cases hid : Allowed db id
    · simp [hid, wrapError, bind, Except.bind, pure, Except.pure]
    · simp [hid, wrapError, bind, Except.bind, pure, Except.pure]

/-- The checks of an item of the queue are not affected by leaving out those of items that are not in it. -/
theorem checksOf_filter {queued : List QueuedWorkRecord} (hid : ∃ q ∈ queued, q.id = workItemId) :
    checksOf (checks.filter fun check => queued.any (·.id == check.workItemId)) workItemId = checksOf checks workItemId := by
  unfold checksOf
  rw [List.filter_filter]
  congr 1
  refine List.filter_congr fun check _ => ?_
  by_cases hcheck : check.workItemId = workItemId
  · obtain ⟨q, hq, hqid⟩ := hid
    have hany : (queued.any (·.id == check.workItemId)) = true :=
      List.any_eq_true.2 ⟨q, hq, by simp [hqid, hcheck]⟩
    rw [hany, Bool.and_true]
  · simp [hcheck]

/-- **The demand counts the items that are allowed.** -/
theorem demandOf_claimable (hchecks : listQueuedResourceConstraintChecks db = .ok checks)
    (hfit : ∀ row ∈ db.queuedWork, UnitsFit db row.workItemId) (running : List RunningWorkRecord)
    (live : List WorkerSessionRecord) :
    ∃ demand, demandOf (listQueuedWorkItems db) running checks live = .ok demand ∧
      demand.pendingClaimable = (listQueuedWorkItems db).countP fun q => decide (Allowed db q.id) := by
  let kept := checks.filter fun check => (listQueuedWorkItems db).any (·.id == check.workItemId)
  let ids := (kept.map (·.workItemId)).dedup
  have hids : ∀ id, id ∈ ids ↔ (∃ q ∈ listQueuedWorkItems db, q.id = id) ∧ ∃ record ∈ checks, record.workItemId = id := by
    intro id
    simp only [ids, kept, List.mem_dedup, List.mem_map, List.mem_filter, List.any_eq_true, beq_iff_eq]
    constructor
    · rintro ⟨record, ⟨hrecord, hq⟩, rfl⟩
      exact ⟨hq, record, hrecord, rfl⟩
    · rintro ⟨hq, record, hrecord, rfl⟩
      exact ⟨record, ⟨hrecord, hq⟩, rfl⟩
  have hqueued : ∀ {id}, (∃ q ∈ listQueuedWorkItems db, q.id = id) → IsQueued db id ∧ UnitsFit db id := by
    rintro id ⟨q, hq, rfl⟩
    exact ⟨isQueued_of_mem_listQueuedWorkForClaim hq, hfit _ (mem_listQueuedWorkForClaim hq).2⟩
  have hcount : countBlocked kept ids = .ok (ids.countP fun id => !decide (Allowed db id)) := by
    refine countBlocked_eq fun id hid => ?_
    obtain ⟨hq, _⟩ := (hids id).1 hid
    rw [checksOf_filter hq]
    exact checksAllow_eq hchecks (hqueued hq).1 (hqueued hq).2
  -- An item that is not allowed has a check, so that the loop meets every such item of the queue once.
  have hblocked : (ids.countP fun id => !decide (Allowed db id)) =
      (listQueuedWorkItems db).countP fun q => !decide (Allowed db q.id) := by
    have hperm : (ids.filter fun id => !decide (Allowed db id)).Perm
        (((listQueuedWorkItems db).map (·.id)).filter fun id => !decide (Allowed db id)) := by
      refine (List.perm_ext_iff_of_nodup ((List.nodup_dedup _).filter _)
        ((nodup_listQueuedWorkItems db).filter _)).2 fun id => ?_
      rw [List.mem_filter, List.mem_filter, hids, List.mem_map]
      refine and_congr_left fun hnot => and_iff_left_of_imp fun hq => ?_
      by_contra hnone
      push Not at hnone
      refine (by simpa using hnot : ¬ Allowed db id) ((checksOf_allow hchecks (hqueued hq).1).1 fun check hcheck => ?_)
      obtain ⟨record, hrecord, _⟩ := List.mem_map.1 hcheck
      exact absurd (by simpa using (List.mem_filter.1 hrecord).2) (hnone record (List.mem_filter.1 hrecord).1)
    rw [List.countP_eq_length_filter, hperm.length_eq, ← List.countP_eq_length_filter, List.countP_map]
    rfl
  refine ⟨_, by rw [demandOf]; exact except_bind_ok.2 ⟨_, hcount, rfl⟩, ?_⟩
  have htotal := List.length_eq_countP_add_countP (fun q : QueuedWorkRecord => decide (Allowed db q.id))
    (l := listQueuedWorkItems db)
  simp only [decide_not, Bool.decide_eq_true] at htotal
  simp only [hblocked]
  omega

/-- **The status counts the constrained items**: the allowed ones as eligible, the others as blocked. -/
theorem tallyQueue_eq (hchecks : listQueuedResourceConstraintChecks db = .ok checks) {queue : List QueuedWorkRecord}
    (hqueue : ∀ q ∈ queue, IsQueued db q.id ∧ UnitsFit db q.id) :
    ∃ tally, tallyQueue checks queue = .ok tally ∧
      tally.eligible = (queue.countP fun q =>
        db.resourceConstraints.any (·.workItemId == q.id) && decide (Allowed db q.id)) ∧
      tally.blocked = queue.countP fun q =>
        db.resourceConstraints.any (·.workItemId == q.id) && !decide (Allowed db q.id) := by
  induction queue with
  | nil => exact ⟨_, rfl, rfl, rfl⟩
  | cons q queue ih =>
    rw [List.forall_mem_cons] at hqueue
    obtain ⟨⟨hqueued, hfit⟩, hrest⟩ := hqueue
    obtain ⟨rest, htally, heligible, hblocked⟩ := ih hrest
    rw [tallyQueue, keyedChecksOf_isEmpty hchecks hqueued, List.countP_cons, List.countP_cons, ← heligible, ← hblocked]
    by_cases hconstrained : db.resourceConstraints.any (·.workItemId == q.id) = true
    · obtain ⟨keys, hkeys⟩ := keyedChecksAllow_eq hchecks hqueued hfit
      rw [hkeys, htally]
      by_cases hallowed : Allowed db q.id
      · exact ⟨{ rest with constrained := rest.constrained + 1, eligible := rest.eligible + 1 },
          by simp [hconstrained, hallowed, wrapError, bind, Except.bind, pure, Except.pure],
          by simp [hconstrained, hallowed], by simp [hconstrained, hallowed]⟩
      · exact ⟨{ rest with
            constrained := rest.constrained + 1, blocked := rest.blocked + 1,
            blockedBy := keys.map (q.id, ·) ++ rest.blockedBy },
          by simp [hconstrained, hallowed, wrapError, bind, Except.bind, pure, Except.pure],
          by simp [hconstrained, hallowed], by simp [hconstrained, hallowed]⟩
    · refine ⟨rest, ?_, by simp [hconstrained], by simp [hconstrained]⟩
      simp [hconstrained, htally]

end

/-! ### The two programs answer -/

section

variable {rt : Runtime} {i : Input} {w : World} {checks : List QueuedResourceConstraintCheckRecord}

theorem queuedChecks_alone {context : String} (hchecks : listQueuedResourceConstraintChecks w.db = .ok checks) :
    (queuedChecks rt context).alone i w = (.ok checks, w) := by
  change ((Prog.ofExcept (listQueuedResourceConstraintChecks w.db)).mapError rt.errorText |>.mapError _ :
    Ctl (List QueuedResourceConstraintCheckRecord)).alone i w = _
  rw [hchecks]
  rfl

theorem queryOrFail_answers {α : Type} {context : String} {g : Store → Except String α} {a : α} (h : g w.db = .ok a) :
    (withContext context (queryOrFail g)).alone i w = (.ok a, w) := by
  rw [queryOrFail_alone, h]
  rfl

/-- The loop over the running work is not refused. -/
theorem countClaims_answers {running : List RunningWorkRecord} (h : ∀ work ∈ running, work.workItem.id ≠ "") :
    ∃ claims, (countClaims running).alone i w = (.ok claims, w) := by
  induction running with
  | nil => exact ⟨0, rfl⟩
  | cons work running ih =>
    rw [List.forall_mem_cons] at h
    obtain ⟨claims, hclaims⟩ := ih h.2
    obtain ⟨records, hrecords⟩ : ∃ records, listWorkItemResourceConstraints w.db work.workItem.id = .ok records :=
      ⟨_, if_neg h.1⟩
    exact ⟨_, (Prog.alone_bind_ok (queryOrFail_answers hrecords)).trans (Prog.alone_bind_ok hclaims)⟩

/-- The loop over the runs is not refused. -/
theorem sumFailed_answers {runs : List WorkflowRunRecord} (h : ∀ run ∈ runs, run.id ≠ "") :
    ∃ failed, (sumFailed runs).alone i w = (.ok failed, w) := by
  induction runs with
  | nil => exact ⟨0, rfl⟩
  | cons run runs ih =>
    rw [List.forall_mem_cons] at h
    obtain ⟨failed, hfailed⟩ := ih h.2
    have hrun : countFailedForRun w.db run.id = .ok (failedOfRun w.db run.id) := if_neg h.1
    exact ⟨_, (Prog.alone_bind_ok (queryOrFail_answers hrun)).trans (Prog.alone_bind_ok hfailed)⟩

theorem workItem_of_mem_listRunningWork {db : Store} {work : RunningWorkRecord} (h : work ∈ listRunningWork db) :
    work.workItem ∈ db.workItems := by
  rw [listRunningWork, List.mem_insertionSort, List.mem_filterMap] at h
  obtain ⟨row, _, hjoin⟩ := h
  obtain ⟨⟨item, attempt⟩, hitem, rfl⟩ := Option.map_eq_some_iff.1 hjoin
  exact (joinAttempt_mem hitem).1

theorem ofExcept_alone {α : Type} {x : Except String α} : (Prog.ofExcept x : Ctl α).alone i w = (x, w) := by
  cases x <;> rfl

variable (rt i) in
theorem workerDemand_alone (hchecks : listQueuedResourceConstraintChecks w.db = .ok checks) (cutoff : Option Instant) :
    ∃ live, (workerDemand rt cutoff).alone i w =
      (demandOf (listQueuedWorkItems w.db) (listRunningWork w.db) checks live, w) := by
  -- The first two reads are steps that answer with the state.
  have hanswer : (queuedChecks rt "list queued resource constraint checks").alone i w = (.ok checks, w) :=
    queuedChecks_alone hchecks
  have hread := Prog.alone_bind_ok hanswer
    (f := fun checks => do
      let live ← match cutoff with
        | some time => query (listLiveWorkerSessions · time)
        | none => pure []
      .ofExcept (demandOf (listQueuedWorkItems w.db) (listRunningWork w.db) checks live))
  cases cutoff with
  | none => exact ⟨[], hread.trans ofExcept_alone⟩
  | some time => exact ⟨listLiveWorkerSessions w.db time, hread.trans ofExcept_alone⟩

variable (rt i) in
theorem persistenceControllerStatus_alone (hchecks : listQueuedResourceConstraintChecks w.db = .ok checks)
    (hnamed : Named w.db) {tally : QueueTally} (htally : tallyQueue checks (listQueuedWorkItems w.db) = .ok tally) :
    ∃ status, (persistenceControllerStatus rt).alone i w = (.ok status, w) ∧
      status.queuedResourceEligibleCount = tally.eligible ∧ status.queuedResourceBlockedCount = tally.blocked := by
  have hitems : ∀ work ∈ listRunningWork w.db, work.workItem.id ≠ "" :=
    fun work hwork => hnamed.items _ (workItem_of_mem_listRunningWork hwork)
  have hruns : ∀ run ∈ listActiveWorkflowRuns w.db, run.id ≠ "" := by
    intro run hrun
    rw [listActiveWorkflowRuns, List.mem_insertionSort, List.mem_filter] at hrun
    exact hnamed.runs run hrun.1
  obtain ⟨claims, hclaims⟩ := countClaims_answers (i := i) (w := w) hitems
  obtain ⟨failed, hfailed⟩ := sumFailed_answers (i := i) (w := w) hruns
  have hqueue : (Prog.ofExcept (tallyQueue checks (listQueuedWorkItems w.db)) : Ctl QueueTally).alone i w =
      (.ok tally, w) := by
    rw [ofExcept_alone, htally]
  exact ⟨_, (Prog.alone_bind_ok (queuedChecks_alone hchecks)).trans ((Prog.alone_bind_ok hqueue).trans
    ((Prog.alone_bind_ok hclaims).trans (Prog.alone_bind_ok hfailed))), rfl, rfl⟩

end

/-! ### Demand and claims -/

/-- The claim operation accepts the item: offered it alone, it returns it. -/
def accepts (fk : Bool) (request : ClaimWorkRequest) (db : Store) (queued : QueuedWorkRecord) : Bool :=
  match claimFirstAllowed fk request [queued] db with
  | .ok (some _, _) => true
  | _ => false

section

variable {fk : Bool} {calls : List Call} {request : ClaimWorkRequest}

/-- An item that does not run is accepted exactly when it is allowed. -/
theorem accepts_eq (hready : ClaimReady (after calls) request) {q : QueuedWorkRecord}
    (hq : q ∈ listQueuedWorkForClaim (after calls)) (hidle : ¬ IsRunning (after calls) q.id) :
    accepts fk request (after calls) q = decide (Allowed (after calls) q.id) := by
  by_cases hallowed : Allowed (after calls) q.id
  · obtain ⟨db', hclaim, _⟩ := hready.claimQueuedWork fk (attemptsConsistent_after calls)
      (sessionsHaveWorkers_after calls) hq hidle
    have hfirst : claimFirstAllowed fk request ([] ++ q :: []) (after calls) = _ :=
      claimFirstAllowed_of_split (fun _ hx => absurd hx List.not_mem_nil)
        (queuedResourceConstraintsAllow_true.2 hallowed) hclaim
    rw [accepts, show claimFirstAllowed fk request [q] (after calls) = _ from hfirst, decide_eq_true hallowed]
  · rw [decide_eq_false hallowed, ← Bool.not_eq_true]
    intro haccepts
    unfold accepts at haccepts
    split at haccepts
    · rename_i claimed db' hclaim
      obtain ⟨hnone, _⟩ | ⟨before, q', rest, _, hitems, _, hyes, _⟩ := claimFirstAllowed_ok hclaim
      · cases hnone
      · have hsame : q' = q := by
          have hmem : q' ∈ [q] := hitems ▸ by simp
          simpa using hmem
        exact hallowed (hsame ▸ queuedResourceConstraintsAllow_true.1 hyes)
    · cases haccepts

/-- A claim returns an item exactly when some item of the queue is allowed. -/
theorem claimNextWork_some_iff (hready : ClaimReady (after calls) request)
    (hfit : ∀ q ∈ listQueuedWorkForClaim (after calls), UnitsFit (after calls) q.id)
    (hidle : ∀ q ∈ listQueuedWorkForClaim (after calls), ¬ IsRunning (after calls) q.id) :
    (∃ claimed db', claimNextWork fk request (after calls) = .ok (some claimed, db')) ↔
      ∃ q ∈ listQueuedWorkForClaim (after calls), Allowed (after calls) q.id := by
  constructor
  · rintro ⟨claimed, db', h⟩
    obtain ⟨_, h⟩ := validated_bind.1 h
    obtain ⟨_, db₁, hsession, h⟩ := Tx.bind_ok.1 h
    obtain ⟨rfl, _⟩ := validateClaimExecutor_ok hsession
    obtain ⟨items, rfl, h⟩ := Tx.read_bind.1 h
    obtain ⟨hnone, _⟩ | ⟨before, q, rest, _, hitems, _, hyes, _⟩ := claimFirstAllowed_ok h
    · cases hnone
    · exact ⟨q, by rw [hitems]; simp, queuedResourceConstraintsAllow_true.1 hyes⟩
  · rintro ⟨q, hq, hallowed⟩
    obtain ⟨first, earlier, later, hsplit, hearlier, hfirst⟩ := exists_earliestAllowed hq hallowed
    obtain ⟨db', hclaim, _⟩ := hready.claimNextWork fk (attemptsConsistent_after calls)
      (sessionsHaveWorkers_after calls) hsplit
      (fun x hx => ⟨(hearlier x hx).1, hfit x (by rw [hsplit]; exact List.mem_append_left _ hx)⟩)
      hfirst.allowed (hidle first hfirst.queued)
    exact ⟨_, db', hclaim⟩

/-- **Demand and claims agree.** In every reachable state of the store in which no constraint check leaves the 64-bit
range and no item of the queue is also running, the demand and the status are computed. For every valid claim with a
new attempt id by an active, live and idle session: the claimable items are as many as the items of the queue that the
claim operation accepts; there is one exactly when the claim returns an item; and the status counts the accepted items
with constraints as eligible and the other items with constraints as blocked. -/
theorem demand_counts_claims (fk : Bool) (rt : Runtime) (i : Input) (cutoff : Option Instant) {calls : List Call} {w : World}
    (hw : w.db = after calls) (hfit : ∀ row ∈ w.db.queuedWork, UnitsFit w.db row.workItemId)
    (hidle : ∀ row ∈ w.db.queuedWork, ¬ IsRunning w.db row.workItemId) :
    ∃ demand status, ((workerDemand rt cutoff).alone i w).1 = .ok demand ∧
      ((persistenceControllerStatus rt).alone i w).1 = .ok status ∧
      ∀ request, ClaimReady w.db request →
        demand.pendingClaimable = (listQueuedWorkItems w.db).countP (accepts fk request w.db) ∧
        (0 < demand.pendingClaimable ↔ ∃ claimed db', claimNextWork fk request w.db = .ok (some claimed, db')) ∧
        status.queuedResourceEligibleCount = ((listQueuedWorkItems w.db).countP fun q =>
          w.db.resourceConstraints.any (·.workItemId == q.id) && accepts fk request w.db q) ∧
        status.queuedResourceBlockedCount = (listQueuedWorkItems w.db).countP fun q =>
          w.db.resourceConstraints.any (·.workItemId == q.id) && !accepts fk request w.db q := by
  have hitem : ∀ q ∈ listQueuedWorkForClaim w.db, IsQueued w.db q.id ∧ UnitsFit w.db q.id ∧ ¬ IsRunning w.db q.id := by
    intro q hq
    have hrow := (mem_listQueuedWorkForClaim hq).2
    exact ⟨⟨_, hrow, rfl⟩, hfit _ hrow, hidle _ hrow⟩
  obtain ⟨checks, hchecks⟩ := exists_queuedChecks hfit
  obtain ⟨live, hdemand⟩ := workerDemand_alone rt i hchecks cutoff
  obtain ⟨demand, hok, hclaimable⟩ := demandOf_claimable hchecks hfit (listRunningWork w.db) live
  have hqueue : ∀ q ∈ listQueuedWorkItems w.db, IsQueued w.db q.id ∧ UnitsFit w.db q.id :=
    fun q hq => ⟨(hitem q hq).1, (hitem q hq).2.1⟩
  obtain ⟨tally, htally, heligible, hblocked⟩ := tallyQueue_eq hchecks hqueue
  obtain ⟨status, hstatus, hse, hsb⟩ := persistenceControllerStatus_alone rt i hchecks
    (hw ▸ named_after calls) htally
  refine ⟨demand, status, by rw [hdemand, hok], by rw [hstatus], fun request hready => ?_⟩
  rw [hw] at hready hitem
  have haccepts : ∀ q ∈ listQueuedWorkItems w.db, accepts fk request w.db q = decide (Allowed w.db q.id) := by
    rw [hw]
    exact fun q hq => accepts_eq hready hq (hitem q hq).2.2
  refine ⟨?_, ?_, ?_, ?_⟩
  · rw [hclaimable]
    exact congrArg _ (List.countP_congr fun q hq => by rw [haccepts q hq])
  · rw [hw, claimNextWork_some_iff hready (fun q hq => (hitem q hq).2.1) fun q hq => (hitem q hq).2.2, hclaimable, hw]
    simp [List.countP_pos_iff, listQueuedWorkItems]
  · rw [hse, heligible]
    exact List.countP_congr fun q hq => by rw [haccepts q hq]
  · rw [hsb, hblocked]
    exact List.countP_congr fun q hq => by rw [haccepts q hq]

end

namespace Sample

open Persistence.Sample

/-- The state in which an item waits for units before one that needs none. -/
def waiting : World := ⟨after blockedFirst, []⟩

/-- The state in which an item of the queue is also running. -/
def queuedAgain : World := ⟨after queuedTwice, []⟩

theorem secondClaim_ready {db : Store} (hsession : getWorkerSession db "worker" "s1" = some (session "s1"))
    (hidle : ∀ r ∈ db.runningWork, r.workerSessionId ≠ some "s1") (hfresh : ∀ a ∈ db.attempts, a.attemptId ≠ "t1") :
    ClaimReady db secondClaim :=
  ⟨by decide +kernel, rfl, ⟨_, hsession, rfl, rfl, hidle⟩, hfresh⟩

/-- One item is claimable, one is blocked, and a claim returns an item. -/
theorem waiting_demand :
    ∃ demand status, ((workerDemand (runtime twoStages threeItems) none).alone input waiting).1 = .ok demand ∧
      ((persistenceControllerStatus (runtime twoStages threeItems)).alone input waiting).1 = .ok status ∧
      demand.pendingClaimable = 1 ∧ status.queuedResourceBlockedCount = 1 ∧
      ∃ claimed db', claimNextWork true secondClaim waiting.db = .ok (some claimed, db') := by
  obtain ⟨demand, status, hdemand, hstatus, hcounts⟩ := demand_counts_claims true (runtime twoStages threeItems) input
    none (w := waiting) rfl (by decide +kernel) (by decide +kernel)
  obtain ⟨hclaimable, hpositive, _, hblocked⟩ := hcounts secondClaim
    (secondClaim_ready (by decide +kernel) (by decide +kernel) (by decide +kernel))
  have hone : (listQueuedWorkItems waiting.db).countP (accepts true secondClaim waiting.db) = 1 := by decide +kernel
  rw [hone] at hclaimable
  refine ⟨demand, status, hdemand, hstatus, hclaimable, ?_, hpositive.1 (by rw [hclaimable]; decide)⟩
  rw [hblocked]
  decide +kernel

/-- **Counted but not claimed**: an item that was queued again while it runs counts as claimable, together with the
item behind it, and the claim of an idle and live session fails. -/
theorem counted_but_not_claimed :
    (∀ row ∈ queuedAgain.db.queuedWork, UnitsFit queuedAgain.db row.workItemId) ∧
      ClaimReady queuedAgain.db secondClaim ∧
      ((workerDemand (runtime twoStages threeItems) none).alone input queuedAgain).1 = .ok ⟨2, 2, 1, 0⟩ ∧
      (claimNextWork true secondClaim queuedAgain.db).isOk = false :=
  ⟨by decide +kernel, secondClaim_ready (by decide +kernel) (by decide +kernel) (by decide +kernel), by decide +kernel,
    by decide +kernel⟩

end Sample

end GoEtl.Controller
