import GoEtl.Persistence.Effects
import GoEtl.Text.TimestampOrder

/-!
# Heartbeats and cutoffs

A session is live while its last heartbeat is not before a cutoff time. The store keeps the heartbeat
as the text the controller formatted, gets the cutoff as such a text, and compares the texts: when it
recovers expired sessions, lists live ones, checks a claim and checks a report. The queue is ordered by
such texts as well.

## What is proved

**Each of these checks answers by the time exactly when the texts order the two instants as the time
does** (`text_order_iff_time_order`), that is, unless heartbeat and cutoff are in the same second and
one fraction begins the other: a heartbeat half a second after a cutoff on the full second counts as
expired (`late_heartbeat_expired`).
-/

namespace GoEtl.Persistence

open Library Text

/-- The store treats a session with its last heartbeat at one instant by the time, at a cutoff: it is
expired when the heartbeat is before the cutoff, and live otherwise. -/
structure TreatedByTime (session : WorkerSessionRecord) (heartbeat cutoff : Instant) : Prop where
  /-- In `RecoverExpiredWorkerSessions`. -/
  recovered : isExpired cutoff.format session = true ↔ heartbeat.nanoseconds < cutoff.nanoseconds
  /-- In claims and reports. -/
  refused : pastCutoff session cutoff.format = true ↔ heartbeat.nanoseconds < cutoff.nanoseconds
  /-- In `ListLiveWorkerSessions`. -/
  listedLive : ∀ db : Store, session ∈ db.workerSessions →
    (session ∈ listLiveWorkerSessions db cutoff ↔ cutoff.nanoseconds ≤ heartbeat.nanoseconds)
  /-- In `ListExpiredWorkerSessions`. -/
  listedExpired : ∀ db : Store, session ∈ db.workerSessions →
    (session ∈ listExpiredWorkerSessions db cutoff ↔ heartbeat.nanoseconds < cutoff.nanoseconds)

/-- The queue orders two items by the time they were queued at, and only then by their ids. -/
def QueuedByTime (t u : Instant) : Prop :=
  ∀ a b : QueuedWorkRecord, a.queuedAt = t.format → b.queuedAt = u.format →
    (a.before b ↔ t.nanoseconds < u.nanoseconds ∨ (t.nanoseconds = u.nanoseconds ∧ a.id ≤ b.id))

variable {session : WorkerSessionRecord} {t u : Instant}

theorem isExpired_iff (hactive : session.status = .active) (hbeat : session.lastHeartbeatAt = t.format) :
    isExpired u.format session = true ↔ t.format < u.format := by
  rw [isExpired, Bool.and_eq_true, decide_eq_true_iff, hbeat]
  simp only [hactive, beq_self_eq_true, true_and]

theorem treatedByTime_iff (hactive : session.status = .active)
    (hbeat : session.lastHeartbeatAt = t.format) : TreatedByTime session t u ↔ SameOrder t u := by
  have hne : u.format ≠ "" := by
    intro h
    have hvalid := validTimestamp_format u
    rw [h] at hvalid
    cases hvalid
  constructor
  · intro h
    have hlt : t.format < u.format ↔ t.nanoseconds < u.nanoseconds :=
      (isExpired_iff hactive hbeat).symm.trans h.recovered
    by_contra hnot
    rw [sameOrder_iff, not_and_or, not_not, not_not] at hnot
    rcases hnot with hbegin | hbegin
    · exact absurd (hlt.2 hbegin.spec.1) (lt_asymm hbegin.spec.2)
    · exact absurd (hlt.1 hbegin.spec.2) (lt_asymm hbegin.spec.1)
  · intro h
    refine ⟨?_, ?_, fun db hmem => ?_, fun db hmem => ?_⟩
    · rw [isExpired_iff hactive hbeat, h.lt_iff]
    · rw [pastCutoff, hbeat, Bool.and_eq_true, decide_eq_true_iff, h.lt_iff]
      simp [hne]
    · have hle : u.format ≤ t.format ↔ u.nanoseconds ≤ t.nanoseconds := by
        rw [← not_lt, ← not_lt, h.lt_iff]
      rw [listLiveWorkerSessions, List.mem_insertionSort, List.mem_filter]
      simp [hactive, hbeat, hle, Table.mem_rows, hmem]
    · rw [listExpiredWorkerSessions, listExpiredActiveWorkerSessions, List.mem_insertionSort,
        List.mem_filter, isExpired_iff hactive hbeat, h.lt_iff]
      simp [Table.mem_rows, hmem]

theorem queuedByTime_iff : QueuedByTime t u ↔ SameOrder t u := by
  constructor
  · intro h
    -- Two items with the same id, so that only the times decide.
    have hitems := h ⟨⟨"", "", 0, 0, "", "", ""⟩, t.format⟩ ⟨⟨"", "", 0, 0, "", "", ""⟩, u.format⟩ rfl rfl
    simp only [QueuedWorkRecord.before, le_refl, and_true, ← le_iff_lt_or_eq] at hitems
    by_contra hnot
    rw [sameOrder_iff, not_and_or, not_not, not_not] at hnot
    rcases hnot with hbegin | hbegin
    · exact absurd (hitems.2 hbegin.spec.1.le) (not_le.2 hbegin.spec.2)
    · exact absurd (hitems.1 hbegin.spec.2.le) (not_le.2 hbegin.spec.1)
  · intro h a b ha hb
    rw [QueuedWorkRecord.before, ha, hb, h.lt_iff, h.eq_iff]

/-- **The order of texts is the order of times**, for two instants, exactly when they are not in the
same second with the fraction of one a proper beginning of the fraction of the other; and exactly then
the store treats a session by the time of its last heartbeat, at every cutoff check, and orders two
queued items by the time they were queued at. -/
theorem text_order_iff_time_order (t u : Instant) :
    (SameOrder t u ↔ ¬ BeginsFraction t u ∧ ¬ BeginsFraction u t) ∧
    (∀ session : WorkerSessionRecord, session.status = .active → session.lastHeartbeatAt = t.format →
      (TreatedByTime session t u ↔ ¬ BeginsFraction t u ∧ ¬ BeginsFraction u t)) ∧
    (QueuedByTime t u ↔ ¬ BeginsFraction t u ∧ ¬ BeginsFraction u t) := by
  refine ⟨sameOrder_iff t u, fun session hactive hbeat => ?_, ?_⟩
  · rw [treatedByTime_iff hactive hbeat, sameOrder_iff]
  · rw [queuedByTime_iff, sameOrder_iff]

/-! ### Recovery -/

section

variable {fk : Bool} {request : RecoverExpiredWorkerSessionsRequest} {db db' : Store}

theorem workerSessions_recoverExpiredWork {assignments : List RunningRow} {counts : ℕ × ℕ}
    (h : recoverExpiredWork fk request assignments db = .ok (counts, db')) : db'.workerSessions = db.workerSessions := by
  induction assignments generalizing db counts with
  | nil =>
    obtain ⟨_, rfl⟩ := Tx.pure_ok.1 h
    rfl
  | cons assignment rest ih =>
    obtain ⟨_, db₁, habandon, h⟩ := Tx.bind_ok.1 h
    obtain ⟨_, db₂, hrequeue, h⟩ := Tx.bind_ok.1 h
    obtain ⟨_, hrest, _⟩ := Tx.bind_pure_ok.1 h
    obtain ⟨_, _, rfl⟩ := abandonRunningWork_ok habandon
    rw [ih hrest]
    rcases requeueExpiredSessionWork_ok hrequeue with ⟨_, _, _, rfl⟩ | ⟨_, _, _, rfl⟩ <;> rfl

/-- The loop ends the sessions of its list that have expired, and no others. -/
theorem mem_recoverSessions {expired : List WorkerSessionRecord} {result : RecoverExpiredWorkerSessionsResult}
    (h : recoverSessions fk request expired db = .ok (result, db')) (hactive : session.status = .active) :
    session ∈ db'.workerSessions ↔ session ∈ db.workerSessions ∧
      ∀ x ∈ expired, ¬(session.id = x.id ∧ session.workerId = x.workerId ∧ isExpired request.cutoff session = true) := by
  induction expired generalizing db result with
  | nil =>
    obtain ⟨_, rfl⟩ := Tx.pure_ok.1 h
    simp
  | cons x rest ih =>
    obtain ⟨changed, db₁, hmark, h⟩ := Tx.bind_ok.1 h
    obtain ⟨_, sessions, hsessions, rfl⟩ := updateWorkerSessions_ok hmark
    have hmem : session ∈ sessions ↔ session ∈ db.workerSessions ∧
        ¬(session.id = x.id ∧ session.workerId = x.workerId ∧ isExpired request.cutoff session = true) := by
      rw [Table.mem_update hsessions]
      constructor
      · rintro (⟨r, _, _, rfl⟩ | ⟨hmem, hnot⟩)
        · cases hactive
        · exact ⟨hmem, by simpa [and_assoc] using hnot⟩
      · rintro ⟨hmem, hnot⟩
        exact .inr ⟨hmem, by simpa [and_assoc] using hnot⟩
    rw [List.forall_mem_cons, ← and_assoc, ← hmem]
    cases changed with
    | false => exact ih h
    | true =>
      obtain ⟨assignments, rfl, h⟩ := Tx.read_bind.1 h
      obtain ⟨counts, db₁, hloop, h⟩ := Tx.bind_ok.1 h
      obtain ⟨result, hrest, _⟩ := Tx.bind_pure_ok.1 h
      rw [ih hrest, workerSessions_recoverExpiredWork hloop]

/-- **After a recovery the active sessions are those that had not expired.** -/
theorem mem_recoverExpiredWorkerSessions {result : RecoverExpiredWorkerSessionsResult}
    (h : recoverExpiredWorkerSessions fk request db = .ok (result, db')) (hactive : session.status = .active) :
    session ∈ db'.workerSessions ↔ session ∈ db.workerSessions ∧ isExpired request.cutoff session = false := by
  obtain ⟨_, h⟩ := validated_bind.1 h
  obtain ⟨sessions, rfl, h⟩ := Tx.read_bind.1 h
  rw [mem_recoverSessions h hactive]
  refine and_congr_right fun hmem => ⟨fun hnone => ?_, fun hlive x _ hx => by simp [hx.2.2] at hlive⟩
  by_contra hexpired
  rw [Bool.not_eq_false] at hexpired
  refine hnone session ?_ ⟨rfl, rfl, hexpired⟩
  rw [listExpiredActiveWorkerSessions, List.mem_insertionSort, List.mem_filter]
  exact ⟨Table.mem_rows.2 hmem, hexpired⟩

end

/-- A moment of the sixth second after noon. -/
def Sample.moment (nanosecond : ℕ) (h : nanosecond < 1000000000) : Instant :=
  ⟨2024, 1, 1, 12, 0, 5, nanosecond, by decide, by decide, by decide, by decide, by decide, by decide, h⟩

/-- A session with its last heartbeat at an instant. -/
def Sample.beating (heartbeat : Instant) : WorkerSessionRecord :=
  ⟨"session", "worker", .active, heartbeat.format, heartbeat.format, none, none, none⟩

/-- A heartbeat a quarter of a second after a full second, and a cutoff another quarter later. -/
theorem text_order_iff_time_order_quarters :
    (let t := Sample.moment 250000000 (by decide)
      let u := Sample.moment 500000000 (by decide)
      SameOrder t u ∧ TreatedByTime (Sample.beating t) t u ∧ QueuedByTime t u) := by
  intro t u
  have h := text_order_iff_time_order t u
  have hfractions : ¬ BeginsFraction t u ∧ ¬ BeginsFraction u t := by decide +kernel
  exact ⟨h.1.2 hfractions, (h.2.1 (Sample.beating t) rfl rfl).2 hfractions, h.2.2.2 hfractions⟩

/-- A heartbeat half a second after the cutoff is expired, refused and not listed as live; and one two
hundredths of a second before the cutoff is neither expired nor refused. -/
theorem late_heartbeat_expired :
    (let cutoff := Sample.moment 0 (by decide)
      let heartbeat := Sample.moment 500000000 (by decide)
      cutoff.nanoseconds < heartbeat.nanoseconds ∧ heartbeat.format < cutoff.format ∧
        isExpired cutoff.format (Sample.beating heartbeat) = true ∧
        pastCutoff (Sample.beating heartbeat) cutoff.format = true) ∧
    (let cutoff := Sample.moment 120000000 (by decide)
      let heartbeat := Sample.moment 100000000 (by decide)
      heartbeat.nanoseconds < cutoff.nanoseconds ∧ cutoff.format < heartbeat.format ∧
        isExpired cutoff.format (Sample.beating heartbeat) = false ∧
        pastCutoff (Sample.beating heartbeat) cutoff.format = false) := by
  decide +kernel

end GoEtl.Persistence
