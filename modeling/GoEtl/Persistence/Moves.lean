import GoEtl.Library.Execution
import GoEtl.Persistence.Sessions

/-!
# What the operations do: elementary moves

Every write operation of the store is a sequence of a few kinds of elementary changes of the
database, from the insertion of a single work item to the end of one session with the work it was
running. This module names these changes (`Event`), says exactly when each can happen and what it
does (`Move`), and proves that every committed operation is an execution of such moves
(`Op.tx_moves` in `Persistence.Operations`). Everything that is proved about runs of the store is
proved once per kind of move.

A move is as large as it must be for the invariants to hold between moves: a session that ends and
the abandonment of its running work are one move, because in between the work would be running for
a session that is no longer active.
-/

namespace GoEtl.Persistence

open Library

/-- How a session ended. -/
structure SessionEnd where
  (workerId sessionId : String)
  /-- Stopped or dead. -/
  status : WorkerSessionStatus
  (endedAt reason : String)
  deriving DecidableEq, Repr

/-- An elementary change of the database. -/
inductive Event where
  /-- Rows of projects, workflows, runs, stages, steps, memberships or outputs changed. -/
  | catalog
  /-- A work item was inserted. -/
  | insertItem (item : WorkItemRecord)
  /-- A resource constraint was inserted. -/
  | insertConstraint (c : WorkItemResourceConstraintRecord)
  /-- A work item was put in the queue. -/
  | enqueue (row : QueuedRow)
  /-- A worker registered. -/
  | registerWorker (w : WorkerRecord)
  /-- A session registered. -/
  | registerSession (session : WorkerSessionRecord)
  /-- A heartbeat of a session. -/
  | heartbeat (request : HeartbeatWorkerSessionRequest)
  /-- A queued work item was claimed. -/
  | claim (request : ClaimWorkRequest) (queued : QueuedWorkRecord)
  /-- A running attempt was completed by a report. -/
  | complete (request : CompleteAttemptRequest) (running : RunningRow)
  /-- A running attempt was failed by a report. -/
  | fail (request : FailAttemptRequest) (running : RunningRow)
  /-- A session without running work ended. -/
  | endIdle (ending : SessionEnd)
  /-- A session was stopped and its running work put back in the queue. -/
  | stop (ending : SessionEnd) (running : RunningRow)
  /-- A session expired and its running work was put back in the queue. -/
  | expireRequeue (ending : SessionEnd) (running : RunningRow)
  /-- A session expired and its running work, out of retries, failed. -/
  | expireFail (ending : SessionEnd) (running : RunningRow)

/-- The sessions before and after one active session ended. -/
def EndsSession (e : SessionEnd) (sessions sessions' : Table Schema.workerSessions) : Prop :=
  ∃ cond : WorkerSessionRecord → Bool,
    (∀ s, cond s = true → isActiveSession e.workerId e.sessionId s = true) ∧
    (∃ s ∈ sessions, cond s = true) ∧
    sessions.update cond (·.ended e.status e.endedAt e.reason) = .ok sessions'

/-- What ending a session does: one active session gets its end, and no other session changes. -/
theorem EndsSession.spec {e : SessionEnd} {sessions sessions' : Table Schema.workerSessions}
    (h : EndsSession e sessions sessions') :
    ∃ r ∈ sessions, r.id = e.sessionId ∧ r.workerId = e.workerId ∧ r.status = .active ∧
      ∀ x, x ∈ sessions' ↔ x = r.ended e.status e.endedAt e.reason ∨ (x ∈ sessions ∧ x.id ≠ e.sessionId) := by
  obtain ⟨cond, hcond, ⟨r, hr, hcr⟩, hupdate⟩ := h
  have hactive : ∀ s, cond s = true →
      s.workerId = e.workerId ∧ s.id = e.sessionId ∧ s.status = .active := fun s hs => by
    simpa [isActiveSession, and_assoc] using hcond s hs
  -- The id determines the row, so the condition selects `r` and no other row.
  have honly : ∀ x ∈ sessions, x.id = e.sessionId → x = r := fun x hx hid =>
    Table.eq_of_clash hx hr (by simp [Schema.workerSessions, hid, (hactive r hcr).2.1])
  refine ⟨r, hr, (hactive r hcr).2.1, (hactive r hcr).1, (hactive r hcr).2.2, fun x => ?_⟩
  rw [Table.mem_update hupdate]
  constructor
  · rintro (⟨y, hy, hcy, rfl⟩ | ⟨hx, hcx⟩)
    · rw [honly y hy (hactive y hcy).2.1]
      exact .inl rfl
    · refine .inr ⟨hx, fun hid => ?_⟩
      rw [honly x hx hid, hcr] at hcx
      cases hcx
  · rintro (rfl | ⟨hx, hid⟩)
    · exact .inl ⟨r, hr, hcr, rfl⟩
    · refine .inr ⟨hx, ?_⟩
      by_contra hcx
      exact hid (hactive x (by simpa using hcx)).2.1

/-- The session may claim: it is active, live and has no running work. -/
def CanClaim (db : Store) (request : ClaimWorkRequest) : Prop :=
  ∃ session, getWorkerSession db request.workerId request.workerSessionId = some session ∧
    session.status = .active ∧ pastCutoff session request.liveSessionCutoff = false ∧
    ∀ r ∈ db.runningWork, r.workerSessionId ≠ some request.workerSessionId

/-- Whom a report on a running attempt is accepted from: a report that names nobody, or the attempt's
own worker and session, if the session is active and not past the cutoff. -/
def OwnerAllowed (db : Store) (running : RunningRow) (workerId sessionId cutoff : String) : Prop :=
  (workerId = "" ∧ sessionId = "") ∨
    (workerId ≠ "" ∧ sessionId ≠ "" ∧ coalesce running.workerId = workerId ∧
      coalesce running.workerSessionId = sessionId ∧
      ∃ session, getWorkerSession db workerId sessionId = some session ∧ session.status = .active ∧
        pastCutoff session cutoff = false)

/-- The abandonments of a work item for a reason. -/
def abandonments (t : Table Schema.abandonedWork) (workItemId reason : String) : ℕ :=
  t.count fun a => a.workItemId == workItemId && a.reason == reason

/-- **The elementary moves**: what each does to the database, and under which conditions. -/
inductive Move : Store → Event → Store → Prop where
  /-- The catalog tables change in any way; no other table changes. -/
  | catalog {db : Store} (projects workflows instances stages steps members facts) :
      Move db .catalog
        { db with
          projects := projects, workflows := workflows, workflowInstances := instances,
          workflowStages := stages, dependencySteps := steps, dependencyWorkItems := members,
          stepOutputFacts := facts }
  /-- A new work item. -/
  | insertItem {db : Store} {item t} (h : db.workItems.insert item = .ok t) :
      Move db (.insertItem item) { db with workItems := t }
  /-- A new resource constraint, of whatever work item. -/
  | insertConstraint {db : Store} {c t} (h : db.resourceConstraints.insert c = .ok t) :
      Move db (.insertConstraint c) { db with resourceConstraints := t }
  /-- A new queue row, of whatever work item. -/
  | enqueue {db : Store} {row t} (h : db.queuedWork.insert row = .ok t) :
      Move db (.enqueue row) { db with queuedWork := t }
  /-- A worker that may already be there. -/
  | registerWorker {db : Store} {w t} (h : db.workers.insertOrIgnore w = .ok t) :
      Move db (.registerWorker w) { db with workers := t }
  /-- A session that is not there yet, of a worker that is. -/
  | registerSession {db : Store} {session t} (hactive : session.status = .active)
      (hworker : ∃ w ∈ db.workers, w.id = session.workerId)
      (h : db.workerSessions.insert session = .ok t) :
      Move db (.registerSession session) { db with workerSessions := t }
  /-- A heartbeat changes the session if it is active. -/
  | heartbeat {db : Store} {request t}
      (h : db.workerSessions.update (isActiveSession request.workerId request.sessionId)
        ({ · with lastHeartbeatAt := request.heartbeatAt }) = .ok t) :
      Move db (.heartbeat request) { db with workerSessions := t }
  /-- A claim takes a queued item that its constraints allow. -/
  | claim {db : Store} {request queued attempts running} (hvalid : request.validate = .ok ())
      (hsession : request.executorType = .worker → CanClaim db request)
      (hqueued : queued ∈ listQueuedWorkForClaim db)
      (hallow : queuedResourceConstraintsAllow db queued.id = .ok true)
      (hattempt : db.attempts.insert (request.attempt queued) = .ok attempts)
      (hrunning : db.runningWork.insert (request.running queued) = .ok running) :
      Move db (.claim request queued)
        { db with
          attempts := attempts, runningWork := running,
          queuedWork := db.queuedWork.delete (·.workItemId == queued.id) }
  /-- A report completes a running attempt. -/
  | complete {db : Store} {request running completed} (hrunning : running ∈ db.runningWork)
      (hattempt : running.attemptId = request.attemptId)
      (howner : OwnerAllowed db running request.workerId request.workerSessionId request.liveSessionCutoff)
      (h : db.completedWork.insert (request.completed running) = .ok completed) :
      Move db (.complete request running)
        { db with
          completedWork := completed,
          runningWork := db.runningWork.delete (·.attemptId == running.attemptId) }
  /-- A report fails a running attempt. -/
  | fail {db : Store} {request running failed} (hrunning : running ∈ db.runningWork)
      (hattempt : running.attemptId = request.attemptId)
      (howner : OwnerAllowed db running request.workerId request.workerSessionId request.liveSessionCutoff)
      (h : db.failedWork.insert (request.failed running) = .ok failed) :
      Move db (.fail request running)
        { db with
          failedWork := failed,
          runningWork := db.runningWork.delete (·.attemptId == running.attemptId) }
  /-- A session without running work ends. -/
  | endIdle {db : Store} {ending sessions} (hend : EndsSession ending db.workerSessions sessions)
      (hidle : ∀ r ∈ db.runningWork, r.workerSessionId ≠ some ending.sessionId) :
      Move db (.endIdle ending) { db with workerSessions := sessions }
  /-- A session stops; its running work is abandoned and queued again. -/
  | stop {db : Store} {ending running sessions abandoned queued}
      (hend : EndsSession ending db.workerSessions sessions) (hrunning : running ∈ db.runningWork)
      (hsession : running.workerSessionId = some ending.sessionId)
      (habandoned : db.abandonedWork.insert (running.abandoned ending.endedAt workerStopped) = .ok abandoned)
      (hqueued : db.queuedWork.insertOrIgnore ⟨running.workItemId, ending.endedAt⟩ = .ok queued) :
      Move db (.stop ending running)
        { db with
          workerSessions := sessions, abandonedWork := abandoned, queuedWork := queued,
          runningWork := db.runningWork.delete (·.attemptId == running.attemptId) }
  /-- A session expires within the retry limit; its running work is abandoned and queued again. -/
  | expireRequeue {db : Store} {ending running sessions abandoned queued}
      (hend : EndsSession ending db.workerSessions sessions) (hrunning : running ∈ db.runningWork)
      (hsession : running.workerSessionId = some ending.sessionId)
      (habandoned : db.abandonedWork.insert (running.abandoned ending.endedAt ending.reason) = .ok abandoned)
      (hcount : abandonments abandoned running.workItemId ending.reason ≤ expiredSessionRequeueLimit)
      (hqueued : db.queuedWork.insertOrIgnore ⟨running.workItemId, ending.endedAt⟩ = .ok queued) :
      Move db (.expireRequeue ending running)
        { db with
          workerSessions := sessions, abandonedWork := abandoned, queuedWork := queued,
          runningWork := db.runningWork.delete (·.attemptId == running.attemptId) }
  /-- A session expires beyond the retry limit; its running work is abandoned and fails. -/
  | expireFail {db : Store} {ending running sessions abandoned failed}
      (hend : EndsSession ending db.workerSessions sessions) (hrunning : running ∈ db.runningWork)
      (hsession : running.workerSessionId = some ending.sessionId)
      (habandoned : db.abandonedWork.insert (running.abandoned ending.endedAt ending.reason) = .ok abandoned)
      (hcount : expiredSessionRequeueLimit < abandonments abandoned running.workItemId ending.reason)
      (hfailed : db.failedWork.insert (running.exhausted ending.endedAt ending.reason) = .ok failed) :
      Move db (.expireFail ending running)
        { db with
          workerSessions := sessions, abandonedWork := abandoned, failedWork := failed,
          runningWork := db.runningWork.delete (·.attemptId == running.attemptId) }

/-- Moves whose events meet a condition lead from one database to the other. -/
abbrev Moves (C : Event → Prop) : Store → Store → Prop := Reaches Move C

end GoEtl.Persistence
