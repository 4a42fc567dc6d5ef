import GoEtl.Persistence.Queue

/-!
# Claiming work

`ClaimNextWork`: the queue is read in the order of queueing time and work item id, and the first
item whose resource constraints allow it is claimed: an attempt and a running row are inserted
and the queue row is deleted. A worker claims through a session that must be active, live and
without running work.

The units in use of a resource are what the view `queued_resource_constraint_checks` sums over the
running work; `SUM` fails when the sum leaves the 64-bit range.
-/

namespace GoEtl.Persistence

open Library Model

/-! ### Sessions -/

/-- `getWorkerSession`. -/
def getWorkerSession (db : Store) (workerId sessionId : String) : Option WorkerSessionRecord :=
  db.workerSessions.lookup fun s => s.workerId == workerId && s.id == sessionId

/-- The session's last heartbeat is before a cutoff, when there is a cutoff. The two times are
compared as texts. -/
def pastCutoff (session : WorkerSessionRecord) (cutoff : String) : Bool :=
  cutoff != "" && decide (session.lastHeartbeatAt < cutoff)

/-- `validateWorkerSessionCanClaim`. -/
def validateWorkerSessionCanClaim (request : ClaimWorkRequest) : StoreTx Unit := do
  match ← Tx.read (getWorkerSession · request.workerId request.workerSessionId) with
  | none => throw .workerSessionNotActive
  | some session => do
    Tx.failIf (session.status != .active) .workerSessionNotActive
    Tx.failIf (pastCutoff session request.liveSessionCutoff) .workerSessionNotActive
    let runningAssignments ←
      Tx.read (·.runningWork.count (·.workerSessionId == some request.workerSessionId))
    Tx.failIf (runningAssignments != 0) .workerSessionBusy

/-- The executor check of `ClaimNextWork`: only a worker's claim goes through a session. -/
def validateClaimExecutor (request : ClaimWorkRequest) : StoreTx Unit :=
  if request.executorType = .worker then validateWorkerSessionCanClaim request else pure ()

/-! ### Resource checks -/

/-- The constraints of the running work on a resource, one per running row and constraint. -/
def runningConstraints (db : Store) (resourceKey : String) : List WorkItemResourceConstraintRecord :=
  db.runningWork.rows.flatMap fun running =>
    db.resourceConstraints.rows.filter fun c =>
      c.workItemId == running.workItemId && c.resourceKey == resourceKey

/-- The units of a resource that the running work requested. -/
def runningUnits (db : Store) (resourceKey : String) : ℤ :=
  ((runningConstraints db resourceKey).map fun c => c.requestedUnits.toInt).sum

/-- `SUM(requested_units)`: an error outside the 64-bit range. -/
def totalUnits (db : Store) (resourceKey : String) : Except Violation Int64 :=
  if InRange (runningUnits db resourceKey) then .ok (Int64.ofInt (runningUnits db resourceKey))
  else .error .overflow

/-- The view's row for a constraint of a queued work item: the constraint with the units in use. -/
def constraintCheck (db : Store) (c : WorkItemResourceConstraintRecord) :
    Except Violation ResourceConstraintCheck :=
  match totalUnits db c.resourceKey with
  | .error v => .error v
  | .ok total => .ok ⟨total, c.requestedUnits, c.operator, c.targetUnits⟩

/-- `listQueuedResourceConstraintChecksForWorkItem`: the view's rows for a queued work item, in the
order of the constraints' index. -/
def listQueuedResourceConstraintChecksForWorkItem (db : Store) (workItemId : String) :
    Except Violation (List ResourceConstraintCheck) :=
  ((db.resourceConstraints.rows.filter (·.workItemId == workItemId)).insertionSort
      (·.constraintIndex ≤ ·.constraintIndex)).mapM (constraintCheck db)

/-- `queuedResourceConstraintsAllow`, with the errors as `ClaimNextWork` wraps them. -/
def queuedResourceConstraintsAllow (db : Store) (workItemId : String) : Except StoreError Bool :=
  match listQueuedResourceConstraintChecksForWorkItem db workItemId with
  | .error v =>
    .error (.sql ("claim queued work " ++ workItemId ++
      ": list queued resource constraint checks for work item " ++ workItemId) v)
  | .ok checks =>
    match resourceConstraintChecksAllow checks with
    | .error e => .error (.message ("claim queued work " ++ workItemId ++ ": " ++ e))
    | .ok allowed => .ok allowed

/-! ### The queue in order -/

/-- The order of the queue: by queueing time, then by work item id, both as texts. -/
def QueuedWorkRecord.before (a b : QueuedWorkRecord) : Prop :=
  a.queuedAt < b.queuedAt ∨ (a.queuedAt = b.queuedAt ∧ a.id ≤ b.id)

instance : DecidableRel QueuedWorkRecord.before := fun _ _ => inferInstanceAs (Decidable (_ ∨ _))

/-- `queued_work JOIN work_items`. -/
def queuedRecords (db : Store) : List QueuedWorkRecord :=
  db.queuedWork.rows.filterMap fun q =>
    (db.workItems.lookup (·.id == q.workItemId)).map fun w => ⟨w, q.queuedAt⟩

/-- `listQueuedWorkForClaim`. -/
def listQueuedWorkForClaim (db : Store) : List QueuedWorkRecord :=
  (queuedRecords db).insertionSort (·.before ·)

/-! ### The claim -/

/-- `ClaimedWorkRecord`. -/
structure ClaimedWorkRecord where
  attemptId : String
  workItem : WorkItemRecord
  (workerId workerSessionId : String)
  executorType : ExecutorType
  (queuedAt startedAt : String)
  deriving DecidableEq, Repr

/-- The attempt row of a claim. -/
def ClaimWorkRequest.attempt (request : ClaimWorkRequest) (queued : QueuedWorkRecord) : AttemptRecord :=
  ⟨request.attemptId, queued.id, nullString request.workerId, nullString request.workerSessionId,
    request.executorType, request.startedAt⟩

/-- The running row of a claim. -/
def ClaimWorkRequest.running (request : ClaimWorkRequest) (queued : QueuedWorkRecord) : RunningRow :=
  ⟨request.attemptId, queued.id, nullString request.workerId, nullString request.workerSessionId,
    queued.queuedAt, request.startedAt⟩

/-- What a claim returns. -/
def ClaimWorkRequest.claimed (request : ClaimWorkRequest) (queued : QueuedWorkRecord) :
    ClaimedWorkRecord :=
  ⟨request.attemptId, queued.toWorkItemRecord, request.workerId, request.workerSessionId,
    request.executorType, queued.queuedAt, request.startedAt⟩

/-- The worker and the session a row names exist, and the session is the worker's; a null column
refers to nothing. -/
def ownerExists (db : Store) (workerId workerSessionId : Option String) : Bool :=
  (match workerId with
    | none => true
    | some w => db.workers.any (·.id == w)) &&
  (match workerSessionId with
    | none => true
    | some s => db.workerSessions.any (·.id == s)) &&
  (match workerId, workerSessionId with
    | some w, some s => db.workerSessions.any fun r => r.workerId == w && r.id == s
    | _, _ => true)

section

variable (fk : Bool)

/-- `claimQueuedWork`. -/
def claimQueuedWork (request : ClaimWorkRequest) (queued : QueuedWorkRecord) :
    StoreTx ClaimedWorkRecord := do
  Tx.exec
    (fun db => writeBack fk
      (db.workItems.any (·.id == queued.id) &&
        ownerExists db (nullString request.workerId) (nullString request.workerSessionId))
      ({ db with attempts := · }) (db.attempts.insert (request.attempt queued)))
    (.sql ("insert work item attempt " ++ request.attemptId))
  Tx.exec
    (fun db => writeBack fk
      (db.attempts.any (·.attemptId == request.attemptId) && db.workItems.any (·.id == queued.id) &&
        ownerExists db (nullString request.workerId) (nullString request.workerSessionId))
      ({ db with runningWork := · }) (db.runningWork.insert (request.running queued)))
    (.sql ("insert running work " ++ request.attemptId))
  let deleted ← Tx.read (·.queuedWork.any (·.workItemId == queued.id))
  Tx.exec
    (fun db => .ok { db with queuedWork := db.queuedWork.delete (·.workItemId == queued.id) })
    (.sql ("delete queued work " ++ queued.id))
  Tx.failIf (!deleted) (.message ("delete queued work " ++ queued.id ++ ": no row deleted"))
  pure (request.claimed queued)

/-- The loop of `ClaimNextWork`: the first queued item that is allowed is claimed. -/
def claimFirstAllowed (request : ClaimWorkRequest) :
    List QueuedWorkRecord → StoreTx (Option ClaimedWorkRecord)
  | [] => pure none
  | queued :: rest => do
    let db ← Tx.read id
    let allowed ← Tx.ofExcept (queuedResourceConstraintsAllow db queued.id)
    if allowed then do
      let claimed ← claimQueuedWork fk request queued
      pure (some claimed)
    else claimFirstAllowed request rest

/-- `ClaimNextWork`: the claimed work, or nothing when no queued item is allowed. -/
def claimNextWork (request : ClaimWorkRequest) : StoreTx (Option ClaimedWorkRecord) := do
  validated request.validate
  validateClaimExecutor request
  let queuedItems ← Tx.read listQueuedWorkForClaim
  claimFirstAllowed fk request queuedItems

end

end GoEtl.Persistence
