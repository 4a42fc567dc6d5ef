import GoEtl.Persistence.Claim

/-!
# Reporting an outcome

`CompleteAttempt` and `FailAttempt`: a report on a running attempt moves it to the completed or
the failed work. A report on an attempt that is not running changes nothing: it is answered with
the recorded outcome when it repeats it, and refused when it contradicts it.

A report names the worker and the session it comes from, or neither. One that names them is
accepted only from the attempt's own session, while that session is active and live; one that
names neither is accepted for every running attempt (`validateRunningAssignmentOwner`).
-/

namespace GoEtl.Persistence

open Library

/-- `validateRunningAssignmentOwner`. -/
def validateRunningAssignmentOwner (running : RunningRow) (workerId sessionId cutoff : String) :
    StoreTx Unit :=
  if workerId = "" ∧ sessionId = "" then pure ()
  else if workerId = "" ∨ sessionId = "" then throw .assignmentNoLongerOwned
  else if coalesce running.workerId ≠ workerId ∨ coalesce running.workerSessionId ≠ sessionId then
    throw .assignmentNoLongerOwned
  else do
    match ← Tx.read (getWorkerSession · workerId sessionId) with
    | none => throw .assignmentNoLongerOwned
    | some session => do
      Tx.failIf (session.status != .active) .assignmentNoLongerOwned
      Tx.failIf (pastCutoff session cutoff) .assignmentNoLongerOwned

/-- `deleteRunningWork`. -/
def deleteRunningWork (attemptId : String) : StoreTx Unit := do
  let deleted ← Tx.read (·.runningWork.any (·.attemptId == attemptId))
  Tx.exec
    (fun db => .ok { db with runningWork := db.runningWork.delete (·.attemptId == attemptId) })
    (.sql ("delete running work " ++ attemptId))
  Tx.failIf (!deleted) (.message ("delete running work " ++ attemptId ++ ": no row deleted"))

/-- `completedWorkMatchesRequest`: a repeated completion; its time is not compared. -/
def completedWorkMatchesRequest (completed : CompletedWorkRecord) (request : CompleteAttemptRequest) :
    Bool :=
  completed.attemptId == request.attemptId &&
    coalesce completed.skippedParentId == request.skippedParentId &&
    completed.outputJson == request.outputJson &&
    completed.outputJsonSha256 == request.outputJsonSha256 &&
    completed.preStateSha256 == request.preStateSha256 &&
    completed.postStateSha256 == request.postStateSha256

/-- `failedWorkMatchesRequest`: a repeated failure; its time is compared. -/
def failedWorkMatchesRequest (failed : FailedWorkRecord) (request : FailAttemptRequest) : Bool :=
  failed.attemptId == request.attemptId && failed.error == request.error &&
    failed.failedAt == request.failedAt

/-- The record of a completion. -/
def CompleteAttemptRequest.completed (request : CompleteAttemptRequest) (running : RunningRow) :
    CompletedWorkRecord :=
  ⟨request.attemptId, running.workItemId, nullString request.skippedParentId, request.outputJson,
    request.outputJsonSha256, request.preStateSha256, request.postStateSha256, running.queuedAt,
    running.startedAt, request.completedAt⟩

/-- The record of a failure. -/
def FailAttemptRequest.failed (request : FailAttemptRequest) (running : RunningRow) : FailedWorkRecord :=
  ⟨request.attemptId, running.workItemId, request.error, running.queuedAt, running.startedAt,
    request.failedAt⟩

/-- The attempt and the work item a finished row names exist. -/
def attemptExists (db : Store) (attemptId workItemId : String) : Bool :=
  db.attempts.any (·.attemptId == attemptId) && db.workItems.any (·.id == workItemId)

/-- A report on an attempt that is not running and has no outcome: a session's report on an
abandoned attempt is told that it owns it no longer, any other finds nothing. -/
def reportWithoutOutcome {α : Type} (attemptId workerId : String) : StoreTx (Option α) := do
  let abandoned ← Tx.read (·.abandonedWork.any (·.attemptId == attemptId))
  Tx.failIf (workerId != "" && abandoned) .assignmentNoLongerOwned
  pure none

section

variable (fk : Bool)

/-- `CompleteAttempt` on a running attempt. -/
def completeRunning (request : CompleteAttemptRequest) (running : RunningRow) :
    StoreTx CompletedWorkRecord := do
  validateRunningAssignmentOwner running request.workerId request.workerSessionId
    request.liveSessionCutoff
  let completed := request.completed running
  Tx.exec
    (fun db => match db.completedWork.insert completed with
      | .error v => .error v
      | .ok t => writeBack fk
          (attemptExists db completed.attemptId completed.workItemId &&
            (match completed.skippedParentId with
              | none => true
              | some parent => t.any (·.attemptId == parent)))
          ({ db with completedWork := · }) (.ok t))
    (.sql ("insert completed work " ++ request.attemptId))
  deleteRunningWork request.attemptId
  pure completed

/-- `CompleteAttempt` on an attempt that is not running. -/
def completeNotRunning (request : CompleteAttemptRequest) : StoreTx (Option CompletedWorkRecord) := do
  match ← Tx.read (·.completedWork.lookup (·.attemptId == request.attemptId)) with
  | some existing => do
    Tx.failIf (!completedWorkMatchesRequest existing request)
      (.message ("complete attempt " ++ request.attemptId ++ " conflicts with existing completed work"))
    pure (some existing)
  | none => do
    let failed ← Tx.read (·.failedWork.any (·.attemptId == request.attemptId))
    Tx.failIf failed
      (.message ("complete attempt " ++ request.attemptId ++ " conflicts with existing failed work"))
    reportWithoutOutcome request.attemptId request.workerId

/-- `CompleteAttempt`: the completed record, or nothing when there is no such attempt. -/
def completeAttempt (request : CompleteAttemptRequest) : StoreTx (Option CompletedWorkRecord) := do
  validated request.validate
  match ← Tx.read (·.runningWork.lookup (·.attemptId == request.attemptId)) with
  | none => completeNotRunning request
  | some running => do
    let completed ← completeRunning fk request running
    pure (some completed)

/-- `FailAttempt` on a running attempt. -/
def failRunning (request : FailAttemptRequest) (running : RunningRow) : StoreTx FailedWorkRecord := do
  validateRunningAssignmentOwner running request.workerId request.workerSessionId
    request.liveSessionCutoff
  let failed := request.failed running
  Tx.exec
    (fun db => writeBack fk (attemptExists db failed.attemptId failed.workItemId)
      ({ db with failedWork := · }) (db.failedWork.insert failed))
    (.sql ("insert failed work " ++ request.attemptId))
  deleteRunningWork request.attemptId
  pure failed

/-- `FailAttempt` on an attempt that is not running. -/
def failNotRunning (request : FailAttemptRequest) : StoreTx (Option FailedWorkRecord) := do
  match ← Tx.read (·.failedWork.lookup (·.attemptId == request.attemptId)) with
  | some existing => do
    Tx.failIf (!failedWorkMatchesRequest existing request)
      (.message ("fail attempt " ++ request.attemptId ++ " conflicts with existing failed work"))
    pure (some existing)
  | none => do
    let completed ← Tx.read (·.completedWork.any (·.attemptId == request.attemptId))
    Tx.failIf completed
      (.message ("fail attempt " ++ request.attemptId ++ " conflicts with existing completed work"))
    reportWithoutOutcome request.attemptId request.workerId

/-- `FailAttempt`: the failed record, or nothing when there is no such attempt. -/
def failAttempt (request : FailAttemptRequest) : StoreTx (Option FailedWorkRecord) := do
  validated request.validate
  match ← Tx.read (·.runningWork.lookup (·.attemptId == request.attemptId)) with
  | none => failNotRunning request
  | some running => do
    let failed ← failRunning fk request running
    pure (some failed)

end

end GoEtl.Persistence
