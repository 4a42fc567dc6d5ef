import GoEtl.Persistence.Admission
import GoEtl.Persistence.Fencing
import GoEtl.Persistence.Placement

/-!
# Claims make progress

A session that may claim gets the first item of the queue, in the order of queueing time and id, whose
resource constraints allow it. `ClaimNextWork` walks the queue and stops at the first item that is
allowed or whose check fails; so what stands before the allowed item matters.

The inserts of a claim cannot fail in a reachable state: a new attempt id is not among the running work
(`AttemptsConsistent`), the session owns no running row, and the worker of every session is registered
(`SessionsHaveWorkers`).

## What is proved

**A claim takes the earliest allowed item** (`claim_takes_earliest`) in every reachable state, unless the
units of an item before it do not fit in 64 bits, which is an error that the store reports instead of
claiming (`overflow_stops_claims`), or the item itself is also running.
-/

namespace GoEtl.Persistence

open Library

variable {fk : Bool} {db db' : Store} {request : ClaimWorkRequest}

/-! ### The queue in order -/

instance : Std.Total QueuedWorkRecord.before where
  total a b := by
    unfold QueuedWorkRecord.before
    rcases lt_trichotomy a.queuedAt b.queuedAt with hlt | heq | hlt
    · exact .inl (.inl hlt)
    · rcases le_total a.id b.id with hid | hid
      · exact .inl (.inr ⟨heq, hid⟩)
      · exact .inr (.inr ⟨heq.symm, hid⟩)
    · exact .inr (.inl hlt)

instance : IsTrans QueuedWorkRecord QueuedWorkRecord.before where
  trans a b c := by
    unfold QueuedWorkRecord.before
    rintro (hab | ⟨hab, hid⟩) (hbc | ⟨hbc, hid'⟩)
    · exact .inl (hab.trans hbc)
    · exact .inl (hbc ▸ hab)
    · exact .inl (hab ▸ hbc)
    · exact .inr ⟨hab.trans hbc, hid.trans hid'⟩

theorem pairwise_listQueuedWorkForClaim (db : Store) :
    (listQueuedWorkForClaim db).Pairwise QueuedWorkRecord.before :=
  List.pairwise_insertionSort _ _

/-- The item's constraints are satisfied by the running work. -/
def Allowed (db : Store) (w : String) : Prop :=
  ∀ c ∈ db.resourceConstraints, c.workItemId = w → Admits db c

instance (db : Store) (w : String) : Decidable (Allowed db w) :=
  inferInstanceAs (Decidable (∀ c ∈ db.resourceConstraints.rows, c.workItemId = w → _))

/-- The item is the first of the queue whose constraints are satisfied. -/
structure EarliestAllowed (db : Store) (first : QueuedWorkRecord) : Prop where
  queued : first ∈ listQueuedWorkForClaim db
  allowed : Allowed db first.id
  earliest : ∀ q ∈ listQueuedWorkForClaim db, Allowed db q.id → first.before q

/-- The queue up to its first allowed item. -/
theorem exists_earliestAllowed {q : QueuedWorkRecord} (hq : q ∈ listQueuedWorkForClaim db)
    (hallowed : Allowed db q.id) :
    ∃ first earlier later, listQueuedWorkForClaim db = earlier ++ first :: later ∧
      (∀ x ∈ earlier, ¬ Allowed db x.id ∧ x.before first) ∧ EarliestAllowed db first := by
  classical
  have hfind : ((listQueuedWorkForClaim db).find? fun x => decide (Allowed db x.id)).isSome := by
    rw [List.find?_isSome]
    exact ⟨q, hq, by simpa using hallowed⟩
  obtain ⟨first, hfirst⟩ := Option.isSome_iff_exists.1 hfind
  obtain ⟨hfirst, earlier, later, hsplit, hearlier⟩ := List.find?_eq_some_iff_append.1 hfirst
  have hsorted := pairwise_listQueuedWorkForClaim db
  rw [hsplit, List.pairwise_append, List.pairwise_cons] at hsorted
  obtain ⟨_, ⟨hlater, _⟩, hacross⟩ := hsorted
  refine ⟨first, earlier, later, hsplit, fun x hx => ⟨by simpa using hearlier x hx, ?_⟩, ?_, ?_, ?_⟩
  · exact hacross x hx first List.mem_cons_self
  · rw [hsplit]
    simp
  · simpa using hfirst
  · intro x hx hxallowed
    rw [hsplit, List.mem_append, List.mem_cons] at hx
    rcases hx with hx | rfl | hx
    · exact absurd hxallowed (by simpa using hearlier x hx)
    · exact (Std.Total.total (r := QueuedWorkRecord.before) x x).elim id id
    · exact hlater x hx

/-! ### Sessions have workers -/

/-- The worker of every session is registered. -/
def SessionsHaveWorkers (db : Store) : Prop :=
  ∀ s ∈ db.workerSessions, ∃ w ∈ db.workers, w.id = s.workerId

theorem SessionsHaveWorkers.endSession {ending : SessionEnd} {sessions : Table Schema.workerSessions}
    (hdb : SessionsHaveWorkers db) (hend : EndsSession ending db.workerSessions sessions) :
    ∀ s ∈ sessions, ∃ w ∈ db.workers, w.id = s.workerId := by
  obtain ⟨r, hr, _, _, _, hsessions⟩ := hend.spec
  intro s hs
  rcases (hsessions s).1 hs with rfl | ⟨hs, _⟩
  · exact hdb r hr
  · exact hdb s hs

theorem Move.sessionsHaveWorkers {e : Event} (h : Move db e db') (hdb : SessionsHaveWorkers db) :
    SessionsHaveWorkers db' := by
  cases h with
  | registerWorker hinsert =>
    intro s hs
    obtain ⟨w, hw, hid⟩ := hdb s hs
    exact ⟨w, Table.mem_insertOrIgnore_of_mem hinsert hw, hid⟩
  | registerSession hactive hworker hinsert =>
    intro s hs
    rcases (Table.mem_insert hinsert).1 hs with hs | rfl
    · exact hdb s hs
    · exact hworker
  | heartbeat hupdate =>
    intro s hs
    rcases (Table.mem_update hupdate).1 hs with ⟨r, hr, _, rfl⟩ | ⟨hs, _⟩
    · exact hdb r hr
    · exact hdb s hs
  | endIdle hend hidle => exact hdb.endSession hend
  | stop hend hrunning hsession habandoned hqueued => exact hdb.endSession hend
  | expireRequeue hend hrunning hsession habandoned hcount hqueued => exact hdb.endSession hend
  | expireFail hend hrunning hsession habandoned hcount hfailed => exact hdb.endSession hend
  | _ => exact hdb

theorem sessionsHaveWorkers_after (calls : List Call) : SessionsHaveWorkers (after calls) :=
  invariant_after (fun _ hs => absurd hs Table.not_mem_empty) (fun _ _ _ hmove => hmove.sessionsHaveWorkers) calls

/-! ### A claim succeeds -/

theorem validateWorkerSessionCanClaim_of_canClaim (h : CanClaim db request) :
    validateWorkerSessionCanClaim request db = .ok ((), db) := by
  obtain ⟨session, hfound, hactive, hlive, hidle⟩ := h
  have hcount : db.runningWork.count (·.workerSessionId == some request.workerSessionId) = 0 := by
    rw [Table.count_eq_zero]
    intro r hr
    simpa using hidle r hr
  refine Tx.bind_ok.2 ⟨some session, db, Tx.read_ok.2 ⟨hfound, rfl⟩, ?_⟩
  refine Tx.bind_ok.2 ⟨(), db, Tx.failIf_ok.2 ⟨by simpa using hactive, rfl⟩, ?_⟩
  refine Tx.bind_ok.2 ⟨(), db, Tx.failIf_ok.2 ⟨hlive, rfl⟩, ?_⟩
  refine Tx.bind_ok.2 ⟨0, db, Tx.read_ok.2 ⟨hcount, rfl⟩, ?_⟩
  exact Tx.failIf_ok.2 ⟨rfl, rfl⟩

/-- The worker and the session of a claim exist. -/
theorem ownerExists_of_canClaim (h : CanClaim db request) (hdb : SessionsHaveWorkers db)
    (hworker : request.workerId ≠ "") (hsession : request.workerSessionId ≠ "") :
    ownerExists db (nullString request.workerId) (nullString request.workerSessionId) = true := by
  obtain ⟨session, hfound, _⟩ := h
  obtain ⟨hmem, hkey⟩ := Table.lookup_mem hfound
  simp only [Bool.and_eq_true, beq_iff_eq] at hkey
  obtain ⟨w, hw, hid⟩ := hdb session hmem
  have h₁ : db.workers.any (·.id == request.workerId) = true :=
    Table.any_eq_true.2 ⟨w, hw, by rw [hid, hkey.1]; exact beq_self_eq_true _⟩
  have h₂ : db.workerSessions.any (·.id == request.workerSessionId) = true :=
    Table.any_eq_true.2 ⟨session, hmem, by rw [hkey.2]; exact beq_self_eq_true _⟩
  have h₃ : (db.workerSessions.any fun r =>
      r.workerId == request.workerId && r.id == request.workerSessionId) = true :=
    Table.any_eq_true.2 ⟨session, hmem, by simp [hkey.1, hkey.2]⟩
  simp [ownerExists, nullString, hworker, hsession, h₁, h₂, h₃]

/-- What a claim needs of its request and of the database. -/
structure ClaimReady (db : Store) (request : ClaimWorkRequest) : Prop where
  valid : request.validate = .ok ()
  worker : request.executorType = .worker
  session : CanClaim db request
  fresh : ∀ a ∈ db.attempts, a.attemptId ≠ request.attemptId

/-- The inserts of a claim of an item that does not run succeed. -/
theorem ClaimReady.claimQueuedWork (fk : Bool) (h : ClaimReady db request) (hattempts : AttemptsConsistent db)
    (hworkers : SessionsHaveWorkers db) {queued : QueuedWorkRecord}
    (hqueued : queued ∈ listQueuedWorkForClaim db) (hidle : ¬ IsRunning db queued.id) :
    ∃ db', Persistence.claimQueuedWork fk request queued db = .ok (request.claimed queued, db') ∧
      db'.runningWork.rows = db.runningWork.rows ++ [request.running queued] ∧
      db'.queuedWork = db.queuedWork.delete (·.workItemId == queued.id) := by
  obtain ⟨_, hworker, hsession⟩ | ⟨hcontroller, _⟩ := ClaimWorkRequest.validate_executor h.valid
  swap
  · rw [h.worker] at hcontroller
    cases hcontroller
  have howner := ownerExists_of_canClaim h.session hworkers hworker hsession
  obtain ⟨hitem, hrow⟩ := mem_listQueuedWorkForClaim hqueued
  have hwork : db.workItems.any (·.id == queued.id) = true :=
    Table.any_eq_true.2 ⟨_, hitem, beq_self_eq_true _⟩
  obtain ⟨attempts, hattempt⟩ : ∃ t, db.attempts.insert (request.attempt queued) = .ok t := by
    refine Table.exists_insert ?_ fun a ha => ?_
    · simp [Schema.attempts, ClaimWorkRequest.attempt, h.worker, nullString, hworker, hsession]
    · simpa [Schema.attempts, ClaimWorkRequest.attempt, Schema.keyed] using h.fresh a ha
  obtain ⟨running, hrunning⟩ : ∃ t, db.runningWork.insert (request.running queued) = .ok t := by
    refine Table.exists_insert rfl fun r hr => ?_
    -- The attempt is new, the item does not run and the session owns nothing.
    have hnew : r.attemptId ≠ request.attemptId := by
      obtain ⟨a, ha, hid, _⟩ := hattempts.running_attempt r hr
      exact hid ▸ h.fresh a ha
    have hitem : r.workItemId ≠ queued.id := fun heq => hidle ⟨r, hr, heq⟩
    have hfree : r.workerSessionId ≠ some request.workerSessionId := by
      obtain ⟨_, _, _, _, hfree⟩ := h.session
      exact hfree r hr
    rw [← Bool.not_eq_true]
    intro hclash
    simp [Schema.runningWork, ClaimWorkRequest.running, nullString, hsession, hnew, hfree] at hclash
    exact hitem hclash.symm
  have hin : db.queuedWork.any (·.workItemId == queued.id) = true :=
    Table.any_eq_true.2 ⟨_, hrow, beq_self_eq_true _⟩
  have hattemptExists : attempts.any (·.attemptId == request.attemptId) = true :=
    Table.any_eq_true.2 ⟨_, (Table.mem_insert hattempt).2 (.inr rfl), beq_self_eq_true _⟩
  refine ⟨{ db with
      attempts := attempts, runningWork := running,
      queuedWork := db.queuedWork.delete (·.workItemId == queued.id) }, ?_, (Table.insert_ok hrunning).1, rfl⟩
  refine Tx.bind_ok.2 ⟨(), _, Tx.exec_ok.2 (writeBack_ok.2 ⟨attempts, hattempt, fun _ => ?_, rfl⟩), ?_⟩
  · simp [hwork, howner]
  refine Tx.bind_ok.2 ⟨(), _, Tx.exec_ok.2 (writeBack_ok.2 ⟨running, hrunning, fun _ => ?_, rfl⟩), ?_⟩
  · rw [Bool.and_eq_true, Bool.and_eq_true]
    exact ⟨⟨hattemptExists, hwork⟩, howner⟩
  refine Tx.bind_ok.2 ⟨true, _, Tx.read_ok.2 ⟨hin, rfl⟩, ?_⟩
  refine Tx.bind_ok.2 ⟨(), _, Tx.exec_ok.2 rfl, ?_⟩
  exact Tx.bind_ok.2 ⟨(), _, Tx.failIf_ok.2 ⟨rfl, rfl⟩, Tx.pure_ok.2 ⟨rfl, rfl⟩⟩

/-- The loop passes the items that are blocked and claims the first that is allowed. -/
theorem claimFirstAllowed_of_split {earlier later : List QueuedWorkRecord} {first : QueuedWorkRecord}
    (hearlier : ∀ x ∈ earlier, queuedResourceConstraintsAllow db x.id = .ok false)
    (hfirst : queuedResourceConstraintsAllow db first.id = .ok true) {claimed : ClaimedWorkRecord}
    (hclaim : claimQueuedWork fk request first db = .ok (claimed, db')) :
    claimFirstAllowed fk request (earlier ++ first :: later) db = .ok (some claimed, db') := by
  induction earlier with
  | nil =>
    refine Tx.bind_ok.2 ⟨db, db, Tx.read_ok.2 ⟨rfl, rfl⟩, ?_⟩
    refine Tx.bind_ok.2 ⟨true, db, Tx.ofExcept_ok.2 ⟨hfirst, rfl⟩, ?_⟩
    exact Tx.bind_ok.2 ⟨claimed, db', hclaim, Tx.pure_ok.2 ⟨rfl, rfl⟩⟩
  | cons x earlier ih =>
    rw [List.forall_mem_cons] at hearlier
    refine Tx.bind_ok.2 ⟨db, db, Tx.read_ok.2 ⟨rfl, rfl⟩, ?_⟩
    refine Tx.bind_ok.2 ⟨false, db, Tx.ofExcept_ok.2 ⟨hearlier.1, rfl⟩, ?_⟩
    exact ih hearlier.2

/-- The answer of the check of an item whose sums fit. -/
theorem UnitsFit.allow_eq {w : String} (hfit : UnitsFit db w) :
    queuedResourceConstraintsAllow db w = .ok (decide (Allowed db w)) := by
  obtain ⟨b, hb⟩ := queuedResourceConstraintsAllow_answers hfit
  have htrue : b = true ↔ Allowed db w := by
    rw [Allowed, ← queuedResourceConstraintsAllow_true, hb, Except.ok.injEq]
  rw [hb, Except.ok.injEq, Bool.eq_iff_iff, htrue, decide_eq_true_iff]

/-- A claim passes the items before the first allowed one, whose checks answer no, and claims it. -/
theorem ClaimReady.claimNextWork (fk : Bool) (h : ClaimReady db request) (hattempts : AttemptsConsistent db)
    (hworkers : SessionsHaveWorkers db) {earlier later : List QueuedWorkRecord} {first : QueuedWorkRecord}
    (hsplit : listQueuedWorkForClaim db = earlier ++ first :: later)
    (hearlier : ∀ x ∈ earlier, ¬ Allowed db x.id ∧ UnitsFit db x.id) (hfirst : Allowed db first.id)
    (hidle : ¬ IsRunning db first.id) :
    ∃ db', Persistence.claimNextWork fk request db = .ok (some (request.claimed first), db') ∧
      db'.runningWork.rows = db.runningWork.rows ++ [request.running first] ∧
      db'.queuedWork = db.queuedWork.delete (·.workItemId == first.id) := by
  have hqueued : first ∈ listQueuedWorkForClaim db := by
    rw [hsplit]
    simp
  obtain ⟨db', hclaim, hrunning, hdeleted⟩ := h.claimQueuedWork fk hattempts hworkers hqueued hidle
  refine ⟨db', ?_, hrunning, hdeleted⟩
  have hblocked : ∀ x ∈ earlier, queuedResourceConstraintsAllow db x.id = .ok false := by
    intro x hx
    obtain ⟨hnot, hfit⟩ := hearlier x hx
    rw [hfit.allow_eq, decide_eq_false hnot]
  refine Tx.bind_ok.2 ⟨(), db, validated_ok.2 ⟨h.valid, rfl⟩, ?_⟩
  refine Tx.bind_ok.2 ⟨(), db, ?_, ?_⟩
  · rw [validateClaimExecutor, if_pos h.worker]
    exact validateWorkerSessionCanClaim_of_canClaim h.session
  refine Tx.bind_ok.2 ⟨listQueuedWorkForClaim db, db, Tx.read_ok.2 ⟨rfl, rfl⟩, ?_⟩
  rw [hsplit]
  exact claimFirstAllowed_of_split hblocked (queuedResourceConstraintsAllow_true.2 hfirst) hclaim

/-- **A claim takes the earliest allowed item.** In every reachable state, for a valid claim with a new
attempt id by an active and live session that owns no work: if the constraints of some queued item are
satisfied, there is an earliest such item in the order of queueing time and id, and if that item does
not itself run and the units of no item before it leave the 64-bit range, the claim succeeds and takes
exactly that item. -/
theorem claim_takes_earliest (fk : Bool) (calls : List Call) (request : ClaimWorkRequest)
    (hready : ClaimReady (after calls) request) {q : QueuedWorkRecord}
    (hq : q ∈ listQueuedWorkForClaim (after calls)) (hallowed : Allowed (after calls) q.id) :
    ∃ first, EarliestAllowed (after calls) first ∧
      (¬ IsRunning (after calls) first.id →
        (∀ x ∈ listQueuedWorkForClaim (after calls), x.before first → UnitsFit (after calls) x.id) →
        ∃ db', claimNextWork fk request (after calls) = .ok (some (request.claimed first), db') ∧
          db'.runningWork.rows = (after calls).runningWork.rows ++ [request.running first] ∧
          db'.queuedWork = (after calls).queuedWork.delete (·.workItemId == first.id)) := by
  obtain ⟨first, earlier, later, hsplit, hearlier, hfirst⟩ := exists_earliestAllowed hq hallowed
  refine ⟨first, hfirst, fun hidle hfit => ?_⟩
  refine hready.claimNextWork fk (attemptsConsistent_after calls) (sessionsHaveWorkers_after calls) hsplit ?_
    hfirst.allowed hidle
  intro x hx
  obtain ⟨hnot, hbefore⟩ := hearlier x hx
  have hmem : x ∈ listQueuedWorkForClaim (after calls) := by
    rw [hsplit]
    exact List.mem_append_left _ hx
  exact ⟨hnot, hfit x hmem hbefore⟩

open Sample

/-- The sessions of a sample run as they register. -/
def Sample.session (sessionId : String) : WorkerSessionRecord :=
  ⟨sessionId, "worker", .active, second 1, second 1, none, none, none⟩

/-- A claim of the second session. -/
def Sample.secondClaim : ClaimWorkRequest := ⟨"t1", "worker", "s1", .worker, second 2, ""⟩

/-- An item with two of three units of the disk runs; one that needs two more waits before one that
needs nothing. -/
def Sample.blockedFirst : List Call :=
  submission ++ [queue "a" 0 [onDisk "a" 2 3], register "worker" "s0",
    claim "t0" "worker" "s0", queue "b" 1 [onDisk "b" 2 3], queue "c" 2 [],
    register "worker" "s1"]

theorem claim_takes_earliest_sample :
    ∃ first db', EarliestAllowed (after blockedFirst) first ∧
      claimNextWork true secondClaim (after blockedFirst) =
        .ok (some (secondClaim.claimed first), db') := by
  have hready : ClaimReady (after blockedFirst) secondClaim :=
    ⟨by decide +kernel, rfl, ⟨session "s1", by decide +kernel⟩, by decide +kernel⟩
  obtain ⟨first, hfirst, hclaim⟩ := claim_takes_earliest true blockedFirst secondClaim hready
    (q := queued "c" 2 (second 0)) (by decide +kernel)
    (queuedResourceConstraintsAllow_true.1 (by decide +kernel))
  have hidle : ∀ x ∈ listQueuedWorkForClaim (after blockedFirst),
      ¬ IsRunning (after blockedFirst) x.id ∧ UnitsFit (after blockedFirst) x.id := by
    decide +kernel
  obtain ⟨db', hok, _⟩ := hclaim (hidle first hfirst.queued).1 fun x hx _ => (hidle x hx).2
  exact ⟨first, db', hfirst, hok⟩

/-- An item with all the units there can be runs; one that needs one more waits before one that needs
nothing. -/
def Sample.overflowing : List Call :=
  submission ++ [queue "a" 0 [onDisk "a" Int64.maxValue Int64.maxValue],
    register "worker" "s0", claim "t0" "worker" "s0",
    queue "b" 1 [onDisk "b" 1 Int64.maxValue], queue "c" 2 [],
    register "worker" "s1"]

/-- An item is running and in the queue again, before one that needs nothing. -/
def Sample.queuedTwice : List Call :=
  submission ++ [queue "a" 0 [], register "worker" "s0",
    claim "t0" "worker" "s0", ⟨true, .enqueueWorkItems [queued "a" 0 (second 0)]⟩,
    queue "c" 2 [], register "worker" "s1"]

/-- The second session may claim and the last item is allowed, but the claim fails. -/
def Sample.ClaimFails (calls : List Call) : Prop :=
  ClaimReady (after calls) secondClaim ∧
    queued "c" 2 (second 0) ∈ listQueuedWorkForClaim (after calls) ∧
    Allowed (after calls) "c" ∧ ∃ e, claimNextWork true secondClaim (after calls) = .error e

/-- The same, by computations. -/
theorem Sample.claimFails_of {calls : List Call}
    (h : getWorkerSession (after calls) "worker" "s1" = some (session "s1") ∧
      (∀ r ∈ (after calls).runningWork, r.workerSessionId ≠ some "s1") ∧
      (∀ a ∈ (after calls).attempts, a.attemptId ≠ "t1") ∧
      queued "c" 2 (second 0) ∈ listQueuedWorkForClaim (after calls) ∧
      queuedResourceConstraintsAllow (after calls) "c" = .ok true ∧
      (claimNextWork true secondClaim (after calls)).isOk = false) : ClaimFails calls := by
  obtain ⟨hsession, hidle, hfresh, hqueued, hallowed, hfails⟩ := h
  refine ⟨⟨by decide +kernel, rfl, ⟨_, hsession, rfl, rfl, hidle⟩, hfresh⟩, hqueued,
    queuedResourceConstraintsAllow_true.1 hallowed, ?_⟩
  cases hresult : claimNextWork true secondClaim (after calls) with
  | error e => exact ⟨e, rfl⟩
  | ok r =>
    rw [hresult] at hfails
    cases hfails

/-- A claim fails at a sum that leaves the range, and at an item that is already running. -/
theorem overflow_stops_claims : ClaimFails overflowing ∧ ClaimFails queuedTwice :=
  ⟨claimFails_of (by decide +kernel), claimFails_of (by decide +kernel)⟩

end GoEtl.Persistence
