import GoEtl.Persistence.Outcome

/-!
# Worker sessions and the recovery of their work

Registering a session, its heartbeats, and the three ways it ends: `EndWorkerSession` (refused
while it has running work), `StopWorkerSessionAndRecoverWork` and `RecoverExpiredWorkerSessions`,
which marks every expired session dead. The last two abandon the session's running work and put
it back in the queue; an expiry does so at most `expiredSessionRequeueLimit` times for one work
item and reason, and then records a failure.
-/

namespace GoEtl.Persistence

open Library

/-- `expiredSessionRequeueLimit`. -/
def expiredSessionRequeueLimit : ℕ := 3

/-! ### Registering and heartbeats -/

/-- `workerSessionMatchesRegistration`: a repeated registration, before the first heartbeat. -/
def workerSessionMatchesRegistration (session : WorkerSessionRecord)
    (request : RegisterWorkerSessionRequest) : Bool :=
  session.id == request.sessionId && session.workerId == request.workerId &&
    session.status == .active && session.registeredAt == request.registeredAt &&
    session.lastHeartbeatAt == request.registeredAt && coalesce session.endedAt == "" &&
    coalesce session.endReason == "" && coalesce session.executionHandle == request.executionHandle

/-- The worker row of a registration. -/
def RegisterWorkerSessionRequest.worker (request : RegisterWorkerSessionRequest) : WorkerRecord :=
  ⟨request.workerId, nullString request.executionHandle, request.registeredAt⟩

/-- The session row of a registration. -/
def RegisterWorkerSessionRequest.session (request : RegisterWorkerSessionRequest) :
    WorkerSessionRecord :=
  ⟨request.sessionId, request.workerId, .active, request.registeredAt, request.registeredAt, none,
    none, nullString request.executionHandle⟩

section

variable (fk : Bool)

/-- `RegisterWorkerSession`. -/
def registerWorkerSession (request : RegisterWorkerSessionRequest) : StoreTx WorkerSessionRecord := do
  validated request.validate
  match ← Tx.read (·.workerSessions.lookup (·.id == request.sessionId)) with
  | some existing => do
    Tx.failIf (!workerSessionMatchesRegistration existing request)
      (.message ("worker session " ++ request.sessionId ++ " already exists with different values"))
    pure existing
  | none => do
    Tx.exec
      (fun db => writeBack fk true ({ db with workers := · }) (db.workers.insertOrIgnore request.worker))
      (.sql ("insert worker " ++ request.workerId))
    Tx.exec
      (fun db => writeBack fk (db.workers.any (·.id == request.workerId))
        ({ db with workerSessions := · }) (db.workerSessions.insert request.session))
      (.sql ("insert worker session " ++ request.sessionId))
    pure request.session

end

/-- Update the rows of `worker_sessions` that satisfy a condition; whether there were any. -/
def updateWorkerSessions (cond : WorkerSessionRecord → Bool)
    (change : WorkerSessionRecord → WorkerSessionRecord) (context : String) : StoreTx Bool := do
  let changed ← Tx.read (·.workerSessions.any cond)
  Tx.exec
    (fun db => writeBack false true ({ db with workerSessions := · })
      (db.workerSessions.update cond change))
    (.sql context)
  pure changed

/-- The active session of that worker and id. -/
def isActiveSession (workerId sessionId : String) (s : WorkerSessionRecord) : Bool :=
  s.workerId == workerId && s.id == sessionId && s.status == .active

/-- The session with an end. -/
def WorkerSessionRecord.ended (s : WorkerSessionRecord) (status : WorkerSessionStatus)
    (endedAt reason : String) : WorkerSessionRecord :=
  { s with status := status, endedAt := some endedAt, endReason := some reason }

/-- `HeartbeatWorkerSession`: whether the session is active. -/
def heartbeatWorkerSession (request : HeartbeatWorkerSessionRequest) : StoreTx Bool := do
  validated request.validate
  updateWorkerSessions (isActiveSession request.workerId request.sessionId)
    ({ · with lastHeartbeatAt := request.heartbeatAt })
    ("heartbeat worker session " ++ request.workerId ++ "/" ++ request.sessionId)

/-- `EndWorkerSession`: whether the session was active. -/
def endWorkerSession (request : EndWorkerSessionRequest) : StoreTx Bool := do
  validated request.validate
  match ← Tx.read (getWorkerSession · request.workerId request.sessionId) with
  | none => pure false
  | some session =>
    if session.status ≠ .active then pure false
    else do
      let runningAssignments ← Tx.read (·.runningWork.count (·.workerSessionId == some request.sessionId))
      Tx.failIf (runningAssignments != 0)
        (.message ("worker session " ++ request.sessionId ++ " has running assignments"))
      updateWorkerSessions (isActiveSession request.workerId request.sessionId)
        (·.ended request.status request.endedAt request.reason)
        ("end worker session " ++ request.workerId ++ "/" ++ request.sessionId)

/-! ### Recovering work -/

/-- The order of a session's running work: by start, then by attempt, both as texts. -/
def RunningRow.before (a b : RunningRow) : Prop :=
  a.startedAt < b.startedAt ∨ (a.startedAt = b.startedAt ∧ a.attemptId ≤ b.attemptId)

instance : DecidableRel RunningRow.before := fun _ _ => inferInstanceAs (Decidable (_ ∨ _))

/-- `listRunningWorkForSession`. -/
def listRunningWorkForSession (db : Store) (sessionId : String) : List RunningRow :=
  (db.runningWork.rows.filter (·.workerSessionId == some sessionId)).insertionSort (·.before ·)

/-- The record of an abandonment. -/
def RunningRow.abandoned (assignment : RunningRow) (abandonedAt reason : String) : AbandonedWorkRecord :=
  ⟨assignment.attemptId, assignment.workItemId, coalesce assignment.workerId,
    coalesce assignment.workerSessionId, assignment.queuedAt, assignment.startedAt, abandonedAt, reason⟩

/-- The text of the failure that ends the retries. -/
def retryCeilingError (reason : String) : String :=
  "expired-session retry ceiling reached after " ++ toString expiredSessionRequeueLimit ++
    " requeues: " ++ reason

/-- The failure that ends the retries. -/
def RunningRow.exhausted (assignment : RunningRow) (failedAt reason : String) : FailedWorkRecord :=
  ⟨assignment.attemptId, assignment.workItemId, retryCeilingError reason, assignment.queuedAt,
    assignment.startedAt, failedAt⟩

section

variable (fk : Bool)

/-- `abandonRunningWork`. -/
def abandonRunningWork (assignment : RunningRow) (abandonedAt reason : String) : StoreTx Unit := do
  Tx.exec
    (fun db => writeBack fk
      (attemptExists db assignment.attemptId assignment.workItemId &&
        db.workers.any (·.id == coalesce assignment.workerId) &&
        db.workerSessions.any (·.id == coalesce assignment.workerSessionId))
      ({ db with abandonedWork := · }) (db.abandonedWork.insert (assignment.abandoned abandonedAt reason)))
    (.sql ("insert abandoned work " ++ assignment.attemptId))
  deleteRunningWork assignment.attemptId

/-- `requeueAbandonedWork`: whether the work item was not in the queue. -/
def requeueAbandonedWork (workItemId queuedAt : String) : StoreTx Bool := do
  let inserted ← Tx.read fun db => !db.queuedWork.any (·.workItemId == workItemId)
  Tx.exec
    (fun db => writeBack (fk && inserted) (db.workItems.any (·.id == workItemId))
      ({ db with queuedWork := · }) (db.queuedWork.insertOrIgnore ⟨workItemId, queuedAt⟩))
    (.sql ("requeue abandoned work " ++ workItemId))
  pure inserted

/-- `requeueExpiredSessionWork`: back in the queue, or failed when the abandonments of the work item
for this reason, the new one included, exceed the limit. -/
def requeueExpiredSessionWork (assignment : RunningRow) (queuedAt reason : String) : StoreTx Bool := do
  let abandonmentCount ← Tx.read
    (·.abandonedWork.count fun a => a.workItemId == assignment.workItemId && a.reason == reason)
  if abandonmentCount ≤ expiredSessionRequeueLimit then
    requeueAbandonedWork fk assignment.workItemId queuedAt
  else do
    Tx.exec
      (fun db => writeBack fk (attemptExists db assignment.attemptId assignment.workItemId)
        ({ db with failedWork := · }) (db.failedWork.insert (assignment.exhausted queuedAt reason)))
      (.sql ("fail retry-exhausted work " ++ assignment.workItemId))
    pure false

/-! ### Stopping a session -/

/-- `StopWorkerSessionAndRecoverWorkResult`. -/
structure StopWorkerSessionAndRecoverWorkResult where
  changed : Bool
  (abandonedAttempts requeuedWorkItems : ℕ)
  deriving DecidableEq, Repr

/-- The reason of the abandonments that a stop records. -/
def workerStopped : String := "worker_stopped"

/-- The loop of `StopWorkerSessionAndRecoverWork`: the number of abandoned attempts and of requeued
work items. -/
def recoverStoppedWork (stoppedAt : String) : List RunningRow → StoreTx (ℕ × ℕ)
  | [] => pure (0, 0)
  | assignment :: rest => do
    abandonRunningWork fk assignment stoppedAt workerStopped
    let requeued ← requeueAbandonedWork fk assignment.workItemId stoppedAt
    let counts ← recoverStoppedWork stoppedAt rest
    pure (counts.1 + 1, counts.2 + requeued.toNat)

/-- `StopWorkerSessionAndRecoverWork`. -/
def stopWorkerSessionAndRecoverWork (request : StopWorkerSessionAndRecoverWorkRequest) :
    StoreTx StopWorkerSessionAndRecoverWorkResult := do
  validated request.validate
  match ← Tx.read (getWorkerSession · request.workerId request.sessionId) with
  | none => pure ⟨false, 0, 0⟩
  | some session =>
    if session.status ≠ .active then pure ⟨false, 0, 0⟩
    else do
      let changed ← updateWorkerSessions (isActiveSession request.workerId request.sessionId)
        (·.ended .stopped request.stoppedAt request.reason)
        ("mark worker session " ++ request.sessionId ++ " stopped")
      if !changed then pure ⟨false, 0, 0⟩
      else do
        let assignments ← Tx.read (listRunningWorkForSession · request.sessionId)
        let counts ← recoverStoppedWork fk request.stoppedAt assignments
        pure ⟨true, counts.1, counts.2⟩

/-! ### Expired sessions -/

/-- `RecoverExpiredWorkerSessionsResult`. -/
structure RecoverExpiredWorkerSessionsResult where
  (expiredSessions abandonedAttempts requeuedWorkItems : ℕ)
  deriving DecidableEq, Repr

/-- The order of expired sessions: by last heartbeat, then by id, both as texts. -/
def WorkerSessionRecord.before (a b : WorkerSessionRecord) : Prop :=
  a.lastHeartbeatAt < b.lastHeartbeatAt ∨ (a.lastHeartbeatAt = b.lastHeartbeatAt ∧ a.id ≤ b.id)

instance : DecidableRel WorkerSessionRecord.before := fun _ _ => inferInstanceAs (Decidable (_ ∨ _))

/-- An active session whose last heartbeat is before the cutoff, compared as texts. -/
def isExpired (cutoff : String) (s : WorkerSessionRecord) : Bool :=
  s.status == .active && decide (s.lastHeartbeatAt < cutoff)

/-- `listExpiredActiveWorkerSessions`. -/
def listExpiredActiveWorkerSessions (db : Store) (cutoff : String) : List WorkerSessionRecord :=
  (db.workerSessions.rows.filter (isExpired cutoff)).insertionSort (·.before ·)

/-- `markWorkerSessionDeadIfExpired`. -/
def markWorkerSessionDeadIfExpired (session : WorkerSessionRecord)
    (request : RecoverExpiredWorkerSessionsRequest) : StoreTx Bool :=
  updateWorkerSessions
    (fun s => s.id == session.id && s.workerId == session.workerId && isExpired request.cutoff s)
    (·.ended .dead request.recoveredAt request.reason)
    ("mark worker session " ++ session.id ++ " dead")

/-- The inner loop of `RecoverExpiredWorkerSessions`. -/
def recoverExpiredWork (request : RecoverExpiredWorkerSessionsRequest) :
    List RunningRow → StoreTx (ℕ × ℕ)
  | [] => pure (0, 0)
  | assignment :: rest => do
    abandonRunningWork fk assignment request.recoveredAt request.reason
    let requeued ← requeueExpiredSessionWork fk assignment request.recoveredAt request.reason
    let counts ← recoverExpiredWork request rest
    pure (counts.1 + 1, counts.2 + requeued.toNat)

/-- The outer loop of `RecoverExpiredWorkerSessions`. -/
def recoverSessions (request : RecoverExpiredWorkerSessionsRequest) :
    List WorkerSessionRecord → StoreTx RecoverExpiredWorkerSessionsResult
  | [] => pure ⟨0, 0, 0⟩
  | session :: rest => do
    let changed ← markWorkerSessionDeadIfExpired session request
    if !changed then recoverSessions request rest
    else do
      let assignments ← Tx.read (listRunningWorkForSession · session.id)
      let counts ← recoverExpiredWork fk request assignments
      let result ← recoverSessions request rest
      pure ⟨result.expiredSessions + 1, result.abandonedAttempts + counts.1,
        result.requeuedWorkItems + counts.2⟩

/-- `RecoverExpiredWorkerSessions`. -/
def recoverExpiredWorkerSessions (request : RecoverExpiredWorkerSessionsRequest) :
    StoreTx RecoverExpiredWorkerSessionsResult := do
  validated request.validate
  let sessions ← Tx.read (listExpiredActiveWorkerSessions · request.cutoff)
  recoverSessions fk request sessions

end

/-! ### Live and expired sessions by a cutoff time -/

/-- `ListLiveWorkerSessions`: the active sessions whose last heartbeat is at or after the cutoff, in
the order of heartbeat and id. -/
def listLiveWorkerSessions (db : Store) (cutoff : Text.Instant) : List WorkerSessionRecord :=
  (db.workerSessions.rows.filter fun s =>
    s.status == .active && decide (cutoff.format ≤ s.lastHeartbeatAt)).insertionSort (·.before ·)

/-- `ListExpiredWorkerSessions`. -/
def listExpiredWorkerSessions (db : Store) (cutoff : Text.Instant) : List WorkerSessionRecord :=
  listExpiredActiveWorkerSessions db cutoff.format

end GoEtl.Persistence
