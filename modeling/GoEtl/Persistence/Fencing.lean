import GoEtl.Persistence.Operations

/-!
# Assignment fencing

An attempt belongs to the worker and session that claimed it. A report on the attempt, of a completion
or of a failure, must not be accepted from anybody else, and not after the session ended or its work was
taken away. `validateRunningAssignmentOwner` is the fence, with one gate in it: a report that names no
worker and no session passes.

## What is proved

`AttemptsConsistent` is the invariant that makes the fence hold over whole runs: attempt ids are never
used twice, a running row has its attempt's worker and session, and an attempt with a recorded outcome
does not run. From it, **`fenced_reports`**: a report changes what is recorded of a session's attempt
only if it names nobody, or names the attempt's own worker and session while that session is active and
not past the cutoff; and once an attempt is abandoned it never gets a completed record, and none of its
records ever changes. **`anonymous_report_accepted`** is the gate: the report that names nobody
completes a session's attempt.
-/

namespace GoEtl.Persistence

open Library

variable {db db' : Store}

/-! ### The records of an attempt -/

/-- The attempt has a recorded outcome: abandoned, completed or failed. -/
def HasEnded (db : Store) (attemptId : String) : Prop :=
  db.abandonedWork.Has (·.attemptId) attemptId ∨ db.completedWork.Has (·.attemptId) attemptId ∨
    db.failedWork.Has (·.attemptId) attemptId

/-- Everything the store records of an attempt. -/
structure AttemptRows where
  /-- Its running row. -/
  running : List RunningRow
  /-- Its completion. -/
  completed : List CompletedWorkRecord
  /-- Its failure. -/
  failed : List FailedWorkRecord
  /-- Its abandonment. -/
  abandoned : List AbandonedWorkRecord
  deriving DecidableEq

/-- The rows of an attempt. -/
def attemptRows (db : Store) (attemptId : String) : AttemptRows where
  running := db.runningWork.rows.filter (·.attemptId == attemptId)
  completed := db.completedWork.rows.filter (·.attemptId == attemptId)
  failed := db.failedWork.rows.filter (·.attemptId == attemptId)
  abandoned := db.abandonedWork.rows.filter (·.attemptId == attemptId)

/-- **The attempts are consistent with the records.** -/
structure AttemptsConsistent (db : Store) : Prop where
  /-- A running row has an attempt, with the same worker and session. -/
  running_attempt : ∀ r ∈ db.runningWork, ∃ a ∈ db.attempts,
    a.attemptId = r.attemptId ∧ a.workerId = r.workerId ∧ a.workerSessionId = r.workerSessionId
  /-- An attempt with an outcome was made, and does not run. -/
  ended : ∀ id, HasEnded db id → db.attempts.Has (·.attemptId) id ∧ ¬ db.runningWork.Has (·.attemptId) id
  /-- An abandoned attempt has not completed. -/
  abandoned : ∀ id, db.abandonedWork.Has (·.attemptId) id → ¬ db.completedWork.Has (·.attemptId) id

theorem attemptsConsistent_empty : AttemptsConsistent Store.empty where
  running_attempt r hr := absurd hr Table.not_mem_empty
  ended id h := by simp [HasEnded, Store.empty] at h
  abandoned id h := by simp [Store.empty] at h

variable {r : RunningRow}

/-- A running attempt has no outcome. -/
theorem AttemptsConsistent.not_ended (hdb : AttemptsConsistent db) (hr : r ∈ db.runningWork)
    : ¬ HasEnded db r.attemptId :=
  fun h => (hdb.ended _ h).2 (Table.has_of_mem hr)

/-- Ending a running attempt keeps the records consistent. -/
theorem AttemptsConsistent.endAttempt (hdb : AttemptsConsistent db) (hr : r ∈ db.runningWork)
    (hattempts : db'.attempts = db.attempts)
    (hrunning : db'.runningWork = db.runningWork.delete (·.attemptId == r.attemptId))
    (hended : ∀ id, HasEnded db' id → HasEnded db id ∨ r.attemptId = id)
    (habandoned : ∀ id, db'.abandonedWork.Has (·.attemptId) id → ¬ db'.completedWork.Has (·.attemptId) id) :
    AttemptsConsistent db' where
  running_attempt x hx := by
    rw [hrunning] at hx
    rw [hattempts]
    exact hdb.running_attempt x (Table.mem_delete.1 hx).1
  ended id hid := by
    rw [hattempts, hrunning]
    rcases hended id hid with hold | rfl
    · obtain ⟨hattempt, hidle⟩ := hdb.ended id hold
      exact ⟨hattempt, fun h => hidle (Table.has_delete_of_has h)⟩
    · obtain ⟨a, ha, hid, _⟩ := hdb.running_attempt r hr
      refine ⟨⟨a, ha, hid⟩, fun h => ?_⟩
      have := (Table.has_delete (c := r.attemptId) fun _ _ => beq_iff_eq).1 h
      exact this.2 rfl
  abandoned := habandoned

variable {a : AttemptRecord}

/-- A claim keeps the records consistent: its attempt id is new. -/
theorem AttemptsConsistent.claim (hdb : AttemptsConsistent db) {attempts : Table Schema.attempts}
    {running : Table Schema.runningWork} {queued : Table Schema.queuedWork} (ha : db.attempts.insert a = .ok attempts)
    (hr : db.runningWork.insert r = .ok running)
    (hsame : a.attemptId = r.attemptId ∧ a.workerId = r.workerId ∧ a.workerSessionId = r.workerSessionId) :
    AttemptsConsistent { db with attempts := attempts, runningWork := running, queuedWork := queued } where
  running_attempt x hx := by
    rcases (Table.mem_insert hr).1 hx with hx | rfl
    · obtain ⟨b, hb, hrest⟩ := hdb.running_attempt x hx
      exact ⟨b, (Table.mem_insert ha).2 (.inl hb), hrest⟩
    · exact ⟨a, (Table.mem_insert ha).2 (.inr rfl), hsame⟩
  ended id hid := by
    have hfresh : ¬ db.attempts.Has (·.attemptId) a.attemptId :=
      Table.not_has_of_insert (f := AttemptRecord.attemptId) (fun x hx => Schema.keyed_clash.2 hx) ha
    obtain ⟨hattempt, hidle⟩ := hdb.ended id hid
    refine ⟨(Table.has_insert ha).2 (.inl hattempt), fun h => ?_⟩
    rcases (Table.has_insert hr).1 h with h | rfl
    · exact hidle h
    · exact hfresh (hsame.1 ▸ hattempt)
  abandoned := hdb.abandoned

/-- Every move keeps the attempts consistent with the records. -/
theorem Move.attemptsConsistent {e : Event} (h : Move db e db') (hdb : AttemptsConsistent db) :
    AttemptsConsistent db' := by
  cases h with
  | catalog | insertItem | insertConstraint | enqueue | registerWorker | registerSession | heartbeat
  | endIdle => exact ⟨hdb.running_attempt, hdb.ended, hdb.abandoned⟩
  | claim hvalid hsession hqueued hallow hattempt hrunning =>
    exact hdb.claim hattempt hrunning ⟨rfl, rfl, rfl⟩
  | complete hrunning hattempt howner h =>
    refine hdb.endAttempt hrunning rfl rfl (fun id hid => ?_) fun id hid hcompleted => ?_
    · simp only [HasEnded, Table.has_insert h, CompleteAttemptRequest.completed, ← hattempt] at hid ⊢
      tauto
    · rcases (Table.has_insert h).1 hcompleted with hold | rfl
      · exact hdb.abandoned id hid hold
      · exact hdb.not_ended hrunning (.inl (hattempt ▸ hid))
  | fail hrunning hattempt howner h =>
    refine hdb.endAttempt hrunning rfl rfl (fun id hid => ?_) hdb.abandoned
    simp only [HasEnded, Table.has_insert h, FailAttemptRequest.failed, ← hattempt] at hid ⊢
    tauto
  | stop hend hrunning hsession habandoned hqueued
  | expireRequeue hend hrunning hsession habandoned _ hqueued =>
    refine hdb.endAttempt hrunning rfl rfl (fun id hid => ?_) fun id hid hcompleted => ?_
    · simp only [HasEnded, Table.has_insert habandoned, RunningRow.abandoned] at hid ⊢
      tauto
    · rcases (Table.has_insert habandoned).1 hid with hold | rfl
      · exact hdb.abandoned id hold hcompleted
      · exact hdb.not_ended hrunning (.inr (.inl hcompleted))
  | expireFail hend hrunning hsession habandoned hcount hfailed =>
    refine hdb.endAttempt hrunning rfl rfl (fun id hid => ?_) fun id hid hcompleted => ?_
    · simp only [HasEnded, Table.has_insert habandoned, Table.has_insert hfailed, RunningRow.abandoned,
        RunningRow.exhausted] at hid ⊢
      tauto
    · rcases (Table.has_insert habandoned).1 hid with hold | rfl
      · exact hdb.abandoned id hold hcompleted
      · exact hdb.not_ended hrunning (.inr (.inl hcompleted))

theorem attemptsConsistent_after (calls : List Call) : AttemptsConsistent (after calls) :=
  invariant_after attemptsConsistent_empty (fun _ _ _ => Move.attemptsConsistent) calls

/-! ### Records that do not change -/

/-- The attempt that an event is about. -/
def Event.attempt? : Event → Option String
  | .claim request _ => some request.attemptId
  | .complete _ running | .fail _ running | .stop _ running | .expireRequeue _ running
  | .expireFail _ running => some running.attemptId
  | _ => none

variable {id : String}

/-- **Frame**: a move changes no record of an attempt that it is not about. -/
theorem Move.attemptRows_eq {e : Event} (h : Move db e db') (hid : e.attempt? ≠ some id) :
    attemptRows db' id = attemptRows db id := by
  have hdelete : ∀ r : RunningRow, (r.attemptId == id) = false →
      (db.runningWork.delete (·.attemptId == r.attemptId)).rows.filter (·.attemptId == id) =
        db.runningWork.rows.filter (·.attemptId == id) := fun r hr =>
    Table.filter_delete fun x hx => by
      rw [beq_iff_eq] at hx
      rw [hx, beq_eq_false_iff_ne]
      exact fun h => by simp [h] at hr
  have hne : ∀ a : String, some a ≠ some id → (a == id) = false := fun a ha =>
    beq_eq_false_iff_ne.2 fun h => ha (congrArg some h)
  cases h with
  | catalog | insertItem | insertConstraint | enqueue | registerWorker | registerSession | heartbeat
  | endIdle => rfl
  | claim hvalid hsession hqueued hallow ha hr =>
    have hrow := hne _ hid
    have := Table.filter_insert (p := fun r : RunningRow => r.attemptId == id) hrow hr
    simp only [attemptRows, this]
  | complete hrunning hattempt howner h =>
    have hrow := hne _ hid
    have := Table.filter_insert (p := fun c : CompletedWorkRecord => c.attemptId == id)
      (by simpa only [CompleteAttemptRequest.completed, ← hattempt] using hrow) h
    simp only [attemptRows, this, hdelete _ hrow]
  | fail hrunning hattempt howner h =>
    have hrow := hne _ hid
    have := Table.filter_insert (p := fun c : FailedWorkRecord => c.attemptId == id)
      (by simpa only [FailAttemptRequest.failed, ← hattempt] using hrow) h
    simp only [attemptRows, this, hdelete _ hrow]
  | stop hend hrunning hsession habandoned hqueued
  | expireRequeue hend hrunning hsession habandoned _ hqueued =>
    have hrow := hne _ hid
    have := Table.filter_insert (p := fun a : AbandonedWorkRecord => a.attemptId == id) hrow habandoned
    simp only [attemptRows, this, hdelete _ hrow]
  | expireFail hend hrunning hsession habandoned hcount hfailed =>
    have hrow := hne _ hid
    have h₁ := Table.filter_insert (p := fun a : AbandonedWorkRecord => a.attemptId == id) hrow habandoned
    have h₂ := Table.filter_insert (p := fun a : FailedWorkRecord => a.attemptId == id) hrow hfailed
    simp only [attemptRows, h₁, h₂, hdelete _ hrow]

/-- No move is about an attempt that has ended: a claim's attempt is new, and the others' run. -/
theorem Move.attempt_ne_of_ended {e : Event} (h : Move db e db') (hdb : AttemptsConsistent db) (hid : HasEnded db id)
    : e.attempt? ≠ some id := by
  have hrunning : ∀ r ∈ db.runningWork, some r.attemptId ≠ some id := by
    intro r hr heq
    cases heq
    exact hdb.not_ended hr hid
  cases h with
  | catalog | insertItem | insertConstraint | enqueue | registerWorker | registerSession | heartbeat
  | endIdle => simp [Event.attempt?]
  | claim hvalid hsession hqueued hallow ha hr =>
    intro heq
    cases heq
    exact Table.not_has_of_insert (f := AttemptRecord.attemptId) (fun x hx => Schema.keyed_clash.2 hx) ha
      (hdb.ended _ hid).1
  | complete hr | fail hr | stop _ hr | expireRequeue _ hr | expireFail _ hr => exact hrunning _ hr

theorem hasEnded_iff :
    HasEnded db id ↔ (attemptRows db id).abandoned ≠ [] ∨ (attemptRows db id).completed ≠ [] ∨
      (attemptRows db id).failed ≠ [] := by
  simp [HasEnded, attemptRows, Table.Has]

/-- Once an attempt has ended, no further calls change what is recorded of it. -/
theorem attemptRows_after {calls : List Call} (h : HasEnded (after calls) id) (later : List Call)
    : attemptRows (after (calls ++ later)) id = attemptRows (after calls) id := by
  -- The invariant carries, with the rows, what keeps them: consistency and the recorded outcome.
  let P : Store → Prop := fun s => attemptRows s id = attemptRows (after calls) id ∧ AttemptsConsistent s
  have hmoves : ∀ s e t, Move s e t → P s → P t := by
    intro s e t hmove hs
    have hended : HasEnded s id := by
      rw [hasEnded_iff, hs.1, ← hasEnded_iff]
      exact h
    have hne := hmove.attempt_ne_of_ended hs.2 hended
    exact ⟨(hmove.attemptRows_eq hne).trans hs.1, hmove.attemptsConsistent hs.2⟩
  exact (invariant_later (P := P) hmoves ⟨rfl, attemptsConsistent_after calls⟩ later).1

/-! ### No attempt is lost -/

/-- An attempt that stops running has an outcome. -/
theorem Move.recorded {e : Event} (h : Move db e db')
    (hdb : db.attempts.Has (·.attemptId) id → db.runningWork.Has (·.attemptId) id ∨ HasEnded db id) :
    db'.attempts.Has (·.attemptId) id → db'.runningWork.Has (·.attemptId) id ∨ HasEnded db' id := by
  have hdelete : ∀ r : RunningRow, (db.runningWork.delete (·.attemptId == r.attemptId)).Has (·.attemptId) id ↔
      db.runningWork.Has (·.attemptId) id ∧ id ≠ r.attemptId := fun _ => Table.has_delete fun _ _ => beq_iff_eq
  cases h with
  | claim _ _ _ _ ha hr =>
    rw [Table.has_insert ha, Table.has_insert hr, or_right_comm]
    exact Or.imp_left hdb
  | complete _ hid _ h | fail _ hid _ h =>
    simp only [HasEnded, hdelete, Table.has_insert h, CompleteAttemptRequest.completed, FailAttemptRequest.failed,
      ← hid] at hdb ⊢
    grind
  | stop _ _ _ h | expireRequeue _ _ _ h =>
    simp only [HasEnded, hdelete, Table.has_insert h, RunningRow.abandoned] at hdb ⊢
    grind
  | expireFail _ _ _ h _ h' =>
    simp only [HasEnded, hdelete, Table.has_insert h, Table.has_insert h', RunningRow.abandoned] at hdb ⊢
    grind
  | _ => exact hdb

/-- **Every attempt is accounted for**: the attempts made either run or have an outcome; only they do. -/
theorem attempts_accounted (calls : List Call) (id : String) :
    (after calls).attempts.Has (·.attemptId) id ↔
      Xor ((after calls).runningWork.Has (·.attemptId) id) (HasEnded (after calls) id) := by
  have hdb := attemptsConsistent_after calls
  constructor
  · intro hmade
    rcases invariant_after (fun h => absurd h Table.not_has_empty) (fun _ _ _ => Move.recorded) calls hmade with
      hrun | hended
    · exact .inl ⟨hrun, fun h => (hdb.ended id h).2 hrun⟩
    · exact .inr ⟨hended, (hdb.ended id hended).2⟩
  · rintro (⟨⟨r, hr, rfl⟩, _⟩ | ⟨hended, _⟩)
    · obtain ⟨a, ha, hid, _⟩ := hdb.running_attempt r hr
      exact ⟨a, ha, hid⟩
    · exact (hdb.ended id hended).1

/-- The second database has the rows of the first, then newer ones. -/
structure Appends (s t : Store) : Prop where
  items : s.workItems.rows <+: t.workItems.rows
  constraints : s.resourceConstraints.rows <+: t.resourceConstraints.rows
  attempts : s.attempts.rows <+: t.attempts.rows
  completed : s.completedWork.rows <+: t.completedWork.rows
  failed : s.failedWork.rows <+: t.failedWork.rows
  abandoned : s.abandonedWork.rows <+: t.abandonedWork.rows

theorem Move.appends {e : Event} (h : Move db e db') : Appends db db' := by
  have hinsert : ∀ {ρ : Type} {S : Schema ρ} {t t' : Table S} {r : ρ}, t.insert r = .ok t' → t.rows <+: t'.rows :=
    fun h => ⟨_, (Table.insert_ok h).1.symm⟩
  cases h <;> constructor <;> first | exact List.prefix_rfl | exact hinsert ‹_›

/-- **Records are only appended to**: those of work items and attempts stay, in order, whatever is called. -/
theorem records_append_only (calls later : List Call) : Appends (after calls) (after (calls ++ later)) := by
  refine invariant_later (P := Appends (after calls)) (fun _ _ _ hmove h => ?_) ?_ later
  · have h' := hmove.appends
    exact ⟨h.1.trans h'.1, h.2.trans h'.2, h.3.trans h'.3, h.4.trans h'.4, h.5.trans h'.5, h.6.trans h'.6⟩
  · constructor <;> exact List.prefix_rfl

/-! ### Reports -/

/-- What a report names: the attempt, and the worker and session it comes from. -/
structure Report where
  (attemptId workerId workerSessionId liveSessionCutoff : String)
  deriving DecidableEq, Repr

/-- The report of an operation, if it is one. -/
def Op.report : Op → Option Report
  | .completeAttempt r => some ⟨r.attemptId, r.workerId, r.workerSessionId, r.liveSessionCutoff⟩
  | .failAttempt r => some ⟨r.attemptId, r.workerId, r.workerSessionId, r.liveSessionCutoff⟩
  | _ => none

/-- The report names no worker and no session. -/
def Report.Anonymous (report : Report) : Prop := report.workerId = "" ∧ report.workerSessionId = ""

/-- The report names this worker and session, and the session is active and not past the cutoff. -/
def Report.FromOwner (db : Store) (report : Report) (workerId sessionId : String) : Prop :=
  report.workerId = workerId ∧ report.workerSessionId = sessionId ∧
    ∃ session ∈ db.workerSessions, session.workerId = workerId ∧ session.id = sessionId ∧
      session.status = .active ∧ pastCutoff session report.liveSessionCutoff = false

/-- The owner check of a running row, for the attempt of that row. -/
theorem OwnerAllowed.report (hdb : AttemptsConsistent db) {running : RunningRow} (hrunning : running ∈ db.runningWork)
    {report : Report} (h : OwnerAllowed db running report.workerId report.workerSessionId report.liveSessionCutoff)
    (ha : a ∈ db.attempts) (hid : a.attemptId = running.attemptId) {workerId sessionId : String}
    (hw : a.workerId = some workerId) (hs : a.workerSessionId = some sessionId) :
    report.Anonymous ∨ report.FromOwner db workerId sessionId := by
  rcases h with hanonymous | ⟨_, _, hworker, hsession, session, hget, hactive, hlive⟩
  · exact .inl hanonymous
  · obtain ⟨b, hb, hbid, hbw, hbs⟩ := hdb.running_attempt running hrunning
    obtain rfl : a = b := Table.eq_of_clash ha hb (Schema.keyed_clash.2 (hid.trans hbid.symm))
    rw [← hbw, hw, coalesce_some] at hworker
    rw [← hbs, hs, coalesce_some] at hsession
    obtain ⟨hmem, hkey⟩ := Table.lookup_mem hget
    rw [Bool.and_eq_true, beq_iff_eq, beq_iff_eq] at hkey
    exact .inr ⟨hworker.symm, hsession.symm, session, hmem, hkey.1.trans hworker.symm,
      hkey.2.trans hsession.symm, hactive, hlive⟩

/-- A report that changes the records of a session's attempt is on that attempt, and comes from nobody
or from its owner. -/
theorem report_step {call : Call} {report : Report} (hreport : call.op.report = some report)
    (hdb : AttemptsConsistent db) (ha : a ∈ db.attempts) {workerId sessionId : String} (hw : a.workerId = some workerId)
    (hs : a.workerSessionId = some sessionId)
    (hchanged : attemptRows (call.step db) a.attemptId ≠ attemptRows db a.attemptId) :
    report.attemptId = a.attemptId ∧ (report.Anonymous ∨ report.FromOwner db workerId sessionId) := by
  obtain ⟨fk, op⟩ := call
  rcases Tx.commit_cases (op.tx fk) db with ⟨_, _, hstep⟩ | ⟨_, db', hok, hstep⟩
  · exact absurd (by rw [Call.step, hstep]) hchanged
  rw [Call.step, hstep] at hchanged
  have hother : ∀ (running : RunningRow) (e : Event), Move db e db' → e.attempt? = some running.attemptId →
      a.attemptId = running.attemptId := by
    intro running e hmove he
    by_contra hne
    refine hchanged (hmove.attemptRows_eq ?_)
    rw [he]
    exact fun h => hne (Option.some.inj h).symm
  cases op with
  | completeAttempt request =>
    cases hreport
    obtain ⟨_, hok⟩ := ignoreResult_ok hok
    rcases completeAttempt_move hok with ⟨rfl, _⟩ | ⟨running, hmove, _⟩
    · exact absurd rfl hchanged
    have hid := hother running _ hmove rfl
    cases hmove with
    | complete hrunning hattempt howner h =>
      exact ⟨(hid.trans hattempt).symm, OwnerAllowed.report hdb hrunning howner ha hid hw hs⟩
  | failAttempt request =>
    cases hreport
    obtain ⟨_, hok⟩ := ignoreResult_ok hok
    rcases failAttempt_move hok with ⟨rfl, _⟩ | ⟨running, hmove, _⟩
    · exact absurd rfl hchanged
    have hid := hother running _ hmove rfl
    cases hmove with
    | fail hrunning hattempt howner h =>
      exact ⟨(hid.trans hattempt).symm, OwnerAllowed.report hdb hrunning howner ha hid hw hs⟩
  | _ => cases hreport

/-- **Reports are fenced**, over every run. A report changes what is recorded of an attempt of a worker
session only if it is on that attempt and either names no worker and no session, or names the attempt's
own worker and session while that session is active and not past the report's cutoff. Once an attempt
is abandoned, it never has a completed record, and no further calls change what is recorded of it. -/
theorem fenced_reports (calls : List Call) :
    (∀ (call : Call) (report : Report), call.op.report = some report →
      ∀ a ∈ (after calls).attempts, ∀ workerId sessionId : String,
        a.workerId = some workerId → a.workerSessionId = some sessionId →
        attemptRows (call.step (after calls)) a.attemptId ≠ attemptRows (after calls) a.attemptId →
        report.attemptId = a.attemptId ∧
          (report.Anonymous ∨ report.FromOwner (after calls) workerId sessionId)) ∧
    ∀ attemptId, (after calls).abandonedWork.Has (·.attemptId) attemptId → ∀ later : List Call,
      ¬ (after (calls ++ later)).completedWork.Has (·.attemptId) attemptId ∧
        attemptRows (after (calls ++ later)) attemptId = attemptRows (after calls) attemptId := by
  have hdb := attemptsConsistent_after calls
  refine ⟨fun call report hreport a ha workerId sessionId hw hs hchanged =>
    report_step hreport hdb ha hw hs hchanged, fun attemptId habandoned later => ?_⟩
  have hrows := attemptRows_after (.inl habandoned) later
  refine ⟨fun hcompleted => ?_, hrows⟩
  -- A completion of the attempt would be among its rows, which are those of the abandoned attempt.
  obtain ⟨c, hc, rfl⟩ := hcompleted
  have hmem : c ∈ (attemptRows (after (calls ++ later)) c.attemptId).completed :=
    List.mem_filter.2 ⟨hc, beq_self_eq_true _⟩
  rw [hrows] at hmem
  exact hdb.abandoned c.attemptId habandoned ⟨c, (List.mem_filter.1 hmem).1, rfl⟩

/-- The calls up to a claim. -/
def claimedSample : List Call :=
  Sample.submission ++ [Sample.queue "a" 0 [], Sample.register "worker" "session",
    Sample.claim "attempt" "worker" "session"]

/-- The owner's report passes the fence, and an abandoned attempt stays as it is when its session
reports late. -/
theorem fenced_reports_sample :
    Report.FromOwner (after claimedSample) ⟨"attempt", "worker", "session", ""⟩ "worker" "session" ∧
      ¬ (after ((claimedSample ++ [Sample.expire]) ++ [Sample.completeAs "attempt" "worker" "session"])
        ).completedWork.Has (·.attemptId) "attempt" := by
  refine ⟨?_, ((fenced_reports (claimedSample ++ [Sample.expire])).2 "attempt" (by decide +kernel) _).1⟩
  have h := (fenced_reports claimedSample).1 (Sample.completeAs "attempt" "worker" "session") _ rfl
    ⟨"attempt", "a", some "worker", some "session", .worker, Sample.second 2⟩ (by decide +kernel)
    "worker" "session" rfl rfl (by decide +kernel)
  exact h.2.resolve_left fun hanonymous => absurd hanonymous.1 (by decide)

/-- The gate in the fence: a report that names no worker and no session completes an attempt of a worker
session. -/
theorem anonymous_report_accepted :
    (∃ a ∈ (after claimedSample).attempts,
      a.attemptId = "attempt" ∧ a.workerId = some "worker" ∧ a.workerSessionId = some "session") ∧
    (Sample.completeAs "attempt" "" "").op.report = some ⟨"attempt", "", "", ""⟩ ∧
    ¬ (after claimedSample).completedWork.Has (·.attemptId) "attempt" ∧
    (after (claimedSample ++ [Sample.completeAs "attempt" "" ""])).completedWork.Has (·.attemptId)
      "attempt" := by
  refine ⟨⟨⟨"attempt", "a", some "worker", some "session", .worker, Sample.second 2⟩, ?_, rfl, rfl, rfl⟩,
    rfl, ?_, ?_⟩ <;> decide +kernel

end GoEtl.Persistence
