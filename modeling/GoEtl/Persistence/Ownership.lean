import GoEtl.Persistence.Operations

/-!
# Sessions and the work they own

A joint invariant of `worker_sessions` and `running_work`: work that runs for a session runs for an
active one, of the same worker. It needs the claim's check of the session, and that every operation that
ends a session takes its running work away in the same transaction.

The other half is a property of the session rows alone: a row that is no longer active is never written
again. Registering the same session id again, and late heartbeats, only touch active rows.

**`sessions_own_running_work`** puts both together for every run.
-/

namespace GoEtl.Persistence

open Library

variable {db db' : Store}

/-- **Running work belongs to an active session** of the same worker. -/
def RunningOwned (db : Store) : Prop :=
  ∀ r ∈ db.runningWork, ∀ sessionId, r.workerSessionId = some sessionId →
    ∃ session ∈ db.workerSessions, session.id = sessionId ∧ session.status = .active ∧
      r.workerId = some session.workerId

/-- The session of a claim exists, is active, and is the claiming worker's. -/
theorem ClaimWorkRequest.running_owned {request : ClaimWorkRequest} (hvalid : request.validate = .ok ())
    (hsession : request.executorType = .worker → CanClaim db request) {queued : QueuedWorkRecord}
    {sessionId : String} (hs : (request.running queued).workerSessionId = some sessionId) :
    ∃ session ∈ db.workerSessions, session.id = sessionId ∧ session.status = .active ∧
      (request.running queued).workerId = some session.workerId := by
  obtain ⟨hid, hne⟩ := nullString_eq_some.1 hs
  rcases request.validate_executor hvalid with ⟨hworker, hw, _⟩ | ⟨_, _, hnone⟩
  · obtain ⟨session, hget, hactive, _⟩ := hsession hworker
    obtain ⟨hmem, hkey⟩ := Table.lookup_mem hget
    rw [Bool.and_eq_true, beq_iff_eq, beq_iff_eq] at hkey
    refine ⟨session, hmem, hkey.2.trans hid, hactive, ?_⟩
    exact nullString_eq_some.2 ⟨hkey.1.symm, hkey.1 ▸ hw⟩
  · exact absurd (hid.symm.trans hnone) hne

/-- Ending a session keeps the running work owned, if that session's work does not run any more. -/
theorem RunningOwned.endSession (hdb : RunningOwned db) {e : SessionEnd}
    (hend : EndsSession e db.workerSessions db'.workerSessions)
    (hrunning : ∀ r ∈ db'.runningWork, r ∈ db.runningWork ∧ r.workerSessionId ≠ some e.sessionId) :
    RunningOwned db' := by
  obtain ⟨_, _, _, _, _, hsessions⟩ := hend.spec
  intro r hr sessionId hs
  obtain ⟨hold, hne⟩ := hrunning r hr
  obtain ⟨session, hmem, hid, hrest⟩ := hdb r hold sessionId hs
  refine ⟨session, (hsessions session).2 (.inr ⟨hmem, fun h => hne ?_⟩), hid, hrest⟩
  rw [hs, ← hid, h]

/-- Deleting a session's running row leaves no running row of the session. -/
theorem not_running_after_delete {running : RunningRow} (hrunning : running ∈ db.runningWork)
    {sessionId : String} (hsession : running.workerSessionId = some sessionId) {r : RunningRow}
    (hr : r ∈ db.runningWork.delete (·.attemptId == running.attemptId)) :
    r ∈ db.runningWork ∧ r.workerSessionId ≠ some sessionId := by
  obtain ⟨hmem, hne⟩ := Table.mem_delete.1 hr
  refine ⟨hmem, fun h => ?_⟩
  rw [Table.eq_of_clash hmem hrunning (by simp [Schema.runningWork, h, hsession])] at hne
  simp at hne

theorem Move.runningOwned {e : Event} (h : Move db e db') (hdb : RunningOwned db) : RunningOwned db' := by
  cases h with
  | catalog | insertItem | insertConstraint | enqueue | registerWorker => exact hdb
  | registerSession hactive hworker h =>
    intro r hr sessionId hs
    obtain ⟨session, hmem, hrest⟩ := hdb r hr sessionId hs
    exact ⟨session, (Table.mem_insert h).2 (.inl hmem), hrest⟩
  | heartbeat h =>
    rename_i request _
    intro r hr sessionId hs
    obtain ⟨session, hmem, hid, hrest⟩ := hdb r hr sessionId hs
    -- The row of the session is the one before, or has a new heartbeat and is the same otherwise.
    cases hcond : isActiveSession request.workerId request.sessionId session
    · exact ⟨session, (Table.mem_update h).2 (.inr ⟨hmem, hcond⟩), hid, hrest⟩
    · exact ⟨_, (Table.mem_update h).2 (.inl ⟨session, hmem, hcond, rfl⟩), hid, hrest⟩
  | claim hvalid hsession hqueued hallow ha hr =>
    intro r hmem sessionId hs
    rcases (Table.mem_insert hr).1 hmem with hold | rfl
    · exact hdb r hold sessionId hs
    · exact ClaimWorkRequest.running_owned hvalid hsession hs
  | complete | fail => exact fun r hr => hdb r (Table.mem_delete.1 hr).1
  | endIdle hend hidle => exact hdb.endSession hend fun r hr => ⟨hr, hidle r hr⟩
  | stop hend hrunning hsession | expireRequeue hend hrunning hsession | expireFail hend hrunning hsession =>
    exact hdb.endSession hend fun r hr => not_running_after_delete hrunning hsession hr

/-! ### Ended sessions -/

/-- A session row that has ended is never written again. -/
theorem Move.mem_of_ended {e : Event} (h : Move db e db') {session : WorkerSessionRecord}
    (hmem : session ∈ db.workerSessions) (hended : session.status ≠ .active) :
    session ∈ db'.workerSessions := by
  have hend : ∀ {e : SessionEnd} {sessions' : Table Schema.workerSessions},
      EndsSession e db.workerSessions sessions' → session ∈ sessions' := by
    intro e sessions' hend
    obtain ⟨r, hr, hid, _, hactive, hsessions⟩ := hend.spec
    refine (hsessions session).2 (.inr ⟨hmem, fun h => hended ?_⟩)
    rw [Table.eq_of_clash hmem hr (by simp [Schema.workerSessions, h, hid])]
    exact hactive
  cases h with
  | catalog | insertItem | insertConstraint | enqueue | registerWorker | claim | complete | fail =>
    exact hmem
  | registerSession hactive hworker h => exact (Table.mem_insert h).2 (.inl hmem)
  | heartbeat h =>
    refine (Table.mem_update h).2 (.inr ⟨hmem, ?_⟩)
    simp [isActiveSession, hended]
  | endIdle h | stop h | expireRequeue h | expireFail h => exact hend h

/-- **Sessions own their running work**, after every run. Running work of a session belongs to a session
that exists, is active and has the same worker; no session owns two running attempts, and a dead or
stopped session owns none. A session that is no longer active stays as it is, with its status, its end
time and its reason, whatever is called later. -/
theorem sessions_own_running_work (calls : List Call) :
    (∀ r ∈ (after calls).runningWork, ∀ sessionId, r.workerSessionId = some sessionId →
      ∃ session ∈ (after calls).workerSessions, session.id = sessionId ∧ session.status = .active ∧
        r.workerId = some session.workerId) ∧
    (∀ r ∈ (after calls).runningWork, ∀ r' ∈ (after calls).runningWork, ∀ sessionId,
      r.workerSessionId = some sessionId → r'.workerSessionId = some sessionId → r = r') ∧
    (∀ session ∈ (after calls).workerSessions, session.status = .dead ∨ session.status = .stopped →
      ∀ r ∈ (after calls).runningWork, r.workerSessionId ≠ some session.id) ∧
    ∀ session ∈ (after calls).workerSessions, session.status ≠ .active → ∀ later : List Call,
      session ∈ (after (calls ++ later)).workerSessions ∧
        ∀ session' ∈ (after (calls ++ later)).workerSessions, session'.id = session.id →
          session' = session := by
  have hsame : ∀ {t : Table Schema.workerSessions} {a b : WorkerSessionRecord}, a ∈ t → b ∈ t →
      a.id = b.id → a = b := fun ha hb hid =>
    Table.eq_of_clash ha hb (by simp [Schema.workerSessions, hid])
  have howned : RunningOwned (after calls) :=
    invariant_after (fun r hr => absurd hr Table.not_mem_empty) (fun _ _ _ => Move.runningOwned) calls
  refine ⟨howned, fun r hr r' hr' sessionId h h' => ?_, fun session hmem hended r hr hs => ?_,
    fun session hmem hended later => ?_⟩
  · exact Table.eq_of_clash hr hr' (by simp [Schema.runningWork, h, h'])
  · obtain ⟨other, hother, hid, hactive, _⟩ := howned r hr session.id hs
    rw [hsame hother hmem hid] at hactive
    rcases hended with h | h <;> simp [h] at hactive
  · have hlater : session ∈ (after (calls ++ later)).workerSessions :=
      invariant_later (P := fun db => session ∈ db.workerSessions)
        (fun _ _ _ hmove h => hmove.mem_of_ended h hended) hmem later
    exact ⟨hlater, fun session' hmem' hid => hsame hmem' hlater hid⟩

open Sample

/-- A session that claimed work owns it; once it expired, registering its id again and a heartbeat
leave it dead, without running work. -/
theorem sessions_own_running_work_sample :
    (let claimed := submission ++ [queue "a" 0 [], register "worker" "session",
        claim "attempt" "worker" "session"]
      let dead : WorkerSessionRecord := ⟨"session", "worker", .dead, second 1, second 1,
        some (second 4), some "heartbeat_expired", none⟩
      let late : List Call := [register "worker" "session",
        ⟨true, .heartbeatWorkerSession ⟨"worker", "session", second 5⟩⟩]
      (∃ session ∈ (after claimed).workerSessions, session.id = "session" ∧ session.status = .active ∧
        some "worker" = some session.workerId) ∧
      (∀ r ∈ (after (claimed ++ [expire])).runningWork, r.workerSessionId ≠ some "session") ∧
      ∀ session' ∈ (after ((claimed ++ [expire]) ++ late)).workerSessions,
        session'.id = "session" → session' = dead) := by
  refine ⟨?_, ?_, ?_⟩
  · exact (sessions_own_running_work _).1
      ⟨"attempt", "a", some "worker", some "session", second 0, second 2⟩
      (by decide +kernel) "session" rfl
  · exact (sessions_own_running_work _).2.2.1 ⟨"session", "worker", .dead, second 1, second 1,
        some (second 4), some "heartbeat_expired", none⟩ (by decide +kernel) (.inl rfl)
  · exact ((sessions_own_running_work _).2.2.2 ⟨"session", "worker", .dead, second 1, second 1,
        some (second 4), some "heartbeat_expired", none⟩ (by decide +kernel) (by decide) _).2

end GoEtl.Persistence
