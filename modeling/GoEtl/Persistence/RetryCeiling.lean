import GoEtl.Persistence.Placement

/-!
# The retry ceiling

A session that stops sending heartbeats is recovered: it is marked dead and the work it was running
goes back to the queue. Work that kills its workers would circulate forever, so the recovery counts the
abandonments of the item that carry its own reason, and beyond `expiredSessionRequeueLimit` of them the
item fails instead.

The count lives in the abandoned work, a table that only grows, and it must agree with the history of
the run: `Ceiling` relates the two. One recovery call is described by `Recovery`: the item is untouched,
or its running attempt expired and the count went up by one.

## What is proved

**The ceiling holds** (`retry_ceiling`): in a run whose recoveries all give one reason, an item is put
back in the queue by recoveries at most three times, its fourth expiry fails it, and from then on it is
neither queued nor running. Two things can break it, and the theorem excludes them: a caller that
enqueues the item while it runs or after its fourth expiry (the store accepts that), and recoveries
that give the reason which stops record.
-/

namespace GoEtl.Persistence

open Library

variable {db db' : Store} {e : Event} {w reason : String}

/-! ### What a move does to one item -/

theorem Move.isQueued (h : Move db e db') :
    IsQueued db' w ↔ (IsQueued db w ∧ e.action ≠ .claim w) ∨ e.action = .enqueue w ∨ e.action = .requeue w :=
  h.placement.mem_queued

theorem Move.isRunning (h : Move db e db') :
    IsRunning db' w ↔
      (IsRunning db w ∧ e.action ≠ .complete w ∧ e.action ≠ .fail w ∧ e.action ≠ .requeue w) ∨
        e.action = .claim w :=
  h.placement.mem_running

theorem Move.isFailed (h : Move db e db') : IsFailed db' w ↔ IsFailed db w ∨ e.action = .fail w :=
  h.placement.mem_failed

theorem Move.queued_of_claim (h : Move db e db') (he : e.action = .claim w) : IsQueued db w :=
  Placement.Step.queued_of_claim (he ▸ h.placement)

theorem Move.running_of_fail (h : Move db e db') (he : e.action = .fail w) : IsRunning db w :=
  Placement.Step.running_of_fail (he ▸ h.placement)

theorem Move.running_of_requeue (h : Move db e db') (he : e.action = .requeue w) : IsRunning db w :=
  Placement.Step.running_of_requeue (he ▸ h.placement)

/-! ### The count of abandonments -/

/-- An attempt on the item expired, for the reason. -/
def Event.Expires (w reason : String) : Event → Prop
  | .expireRequeue ending running => running.workItemId = w ∧ ending.reason = reason
  | .expireFail ending running => running.workItemId = w ∧ ending.reason = reason
  | _ => False

theorem abandonments_insert {t t' : Table Schema.abandonedWork} {running : RunningRow}
    {abandonedAt reason' : String} (h : t.insert (running.abandoned abandonedAt reason') = .ok t') :
    abandonments t' w reason =
      abandonments t w reason + (running.workItemId == w && reason' == reason).toNat :=
  Table.count_insert h

/-- An expiry adds one abandonment for its reason; within the limit it requeues the item, beyond it the
item fails. -/
theorem Move.expiry (h : Move db e db') (he : e.Expires w reason) :
    abandonments db'.abandonedWork w reason = abandonments db.abandonedWork w reason + 1 ∧
      ((e.action = .requeue w ∧ abandonments db'.abandonedWork w reason ≤ expiredSessionRequeueLimit) ∨
        (e.action = .fail w ∧ expiredSessionRequeueLimit < abandonments db'.abandonedWork w reason)) := by
  cases h with
  | expireRequeue hend hrunning hsession habandoned hcount hqueued =>
    obtain ⟨rfl, rfl⟩ := he
    refine ⟨?_, .inl ⟨rfl, hcount⟩⟩
    rw [abandonments_insert habandoned]
    simp
  | expireFail hend hrunning hsession habandoned hcount hfailed =>
    obtain ⟨rfl, rfl⟩ := he
    refine ⟨?_, .inr ⟨rfl, hcount⟩⟩
    rw [abandonments_insert habandoned]
    simp
  | _ => exact he.elim

/-- Nothing but an expiry adds an abandonment for the reason, unless it is the one that stops record. -/
theorem Move.abandonments_eq (h : Move db e db') (hreason : reason ≠ workerStopped)
    (he : ¬ e.Expires w reason) :
    abandonments db'.abandonedWork w reason = abandonments db.abandonedWork w reason := by
  cases h with
  | stop hend hrunning hsession habandoned hqueued =>
    have hne : (workerStopped == reason) = false := by simpa using Ne.symm hreason
    rw [abandonments_insert habandoned, hne, Bool.and_false]
    rfl
  | expireRequeue hend hrunning hsession habandoned hcount hrow
  | expireFail hend hrunning hsession habandoned hcount hrow =>
    rename_i ending running _ _ _
    have hne : (running.workItemId == w && ending.reason == reason) = false := by
      simpa [Event.Expires] using he
    rw [abandonments_insert habandoned, hne]
    rfl
  | _ => rfl

/-! ### The state between calls -/

/-- The item is not queued while it runs, and beyond the limit it has failed and is neither queued nor
running. -/
structure WithinCeiling (reason w : String) (db : Store) : Prop where
  apart : ¬ (IsQueued db w ∧ IsRunning db w)
  exhausted : expiredSessionRequeueLimit < abandonments db.abandonedWork w reason →
    IsFailed db w ∧ ¬ IsQueued db w ∧ ¬ IsRunning db w

/-- The call does not enqueue the item while it runs or beyond the limit. -/
def EnqueuesWithin (reason w : String) (db : Store) (call : Call) : Prop :=
  ∀ q ∈ call.op.enqueues, q.id = w →
    ¬ IsRunning db w ∧ abandonments db.abandonedWork w reason ≤ expiredSessionRequeueLimit

instance (db : Store) (call : Call) : Decidable (EnqueuesWithin reason w db call) :=
  inferInstanceAs (Decidable (∀ q ∈ call.op.enqueues, _))

theorem WithinCeiling.expiry (hdb : WithinCeiling reason w db) (h : Move db e db')
    (he : e.Expires w reason) : WithinCeiling reason w db' := by
  obtain ⟨_, ⟨haction, hcount⟩ | ⟨haction, hcount⟩⟩ := h.expiry he
  · have hnot : ¬ IsRunning db' w := by
      rw [h.isRunning, haction]
      simp
    exact ⟨fun hboth => hnot hboth.2, fun hlt => by omega⟩
  · have hqueued : ¬ IsQueued db w := fun hq => hdb.apart ⟨hq, h.running_of_fail haction⟩
    have hnot : ¬ IsRunning db' w ∧ ¬ IsQueued db' w := by
      rw [h.isRunning, h.isQueued, haction]
      simp [hqueued]
    exact ⟨fun hboth => hnot.1 hboth.2, fun _ => ⟨h.isFailed.2 (.inr haction), hnot.2, hnot.1⟩⟩

theorem WithinCeiling.move (hdb : WithinCeiling reason w db) (h : Move db e db')
    (hreason : reason ≠ workerStopped) (he : ¬ e.Expires w reason)
    (henqueue : e.action = .enqueue w →
      ¬ IsRunning db w ∧ abandonments db.abandonedWork w reason ≤ expiredSessionRequeueLimit) :
    WithinCeiling reason w db' := by
  constructor
  · rintro ⟨hq, hr⟩
    rw [h.isQueued] at hq
    rw [h.isRunning] at hr
    rcases hr with ⟨hr, _, _, hstay⟩ | hclaim
    · rcases hq with ⟨hq, _⟩ | haction | haction
      · exact hdb.apart ⟨hq, hr⟩
      · exact (henqueue haction).1 hr
      · exact hstay haction
    · rw [hclaim] at hq
      simp at hq
  · intro hlt
    rw [h.abandonments_eq hreason he] at hlt
    obtain ⟨hfailed, hqueued, hrunning⟩ := hdb.exhausted hlt
    refine ⟨h.isFailed.2 (.inl hfailed), fun hq => ?_, fun hr => ?_⟩
    · rcases h.isQueued.1 hq with ⟨hq, _⟩ | haction | haction
      · exact hqueued hq
      · exact absurd (henqueue haction).2 (by omega)
      · exact hrunning (h.running_of_requeue haction)
    · rcases h.isRunning.1 hr with ⟨hr, _⟩ | haction
      · exact hrunning hr
      · exact hqueued (h.queued_of_claim haction)

variable {call : Call}

/-- A call that enqueues within the ceiling keeps the item within it. -/
theorem WithinCeiling.step (hdb : WithinCeiling reason w db) (hreason : reason ≠ workerStopped)
    (hcall : EnqueuesWithin reason w db call) :
    WithinCeiling reason w (call.step db) := by
  refine Call.guarded_invariant (P := WithinCeiling reason w)
    (G := fun s e => e.action = .enqueue w →
      ¬ IsRunning s w ∧ abandonments s.abandonedWork w reason ≤ expiredSessionRequeueLimit)
    ?_ ?_ ?_ ?_ hdb
  · intro s t e hsame hguard haction
    rw [IsRunning, hsame.running, hsame.abandoned]
    exact hguard haction
  · intro s e he haction
    cases e with
    | enqueue row => cases he
    | _ => cases haction
  · intro s e t _ hguard hmove hs
    by_cases he : e.Expires w reason
    · exact hs.expiry hmove he
    · exact hs.move hmove hreason he hguard
  · intro e hcause haction
    cases e with
    | enqueue row =>
      obtain ⟨q, hq, rfl⟩ := Op.causes_enqueue hcause
      exact hcall q hq (by simpa [Event.action] using haction)
    | _ => cases haction

/-! ### One recovery -/

/-- The recovery left the item alone. -/
def Untouched (reason w : String) (s t : Store) : Prop :=
  (IsRunning t w ↔ IsRunning s w) ∧ (IsQueued t w ↔ IsQueued s w) ∧ (IsFailed s w → IsFailed t w) ∧
    abandonments t.abandonedWork w reason = abandonments s.abandonedWork w reason

/-- The item's running attempt expired: it is counted, and the item is queued within the limit and has
failed beyond it. -/
def ExpiredOnce (reason w : String) (s t : Store) : Prop :=
  IsRunning s w ∧ ¬ IsRunning t w ∧
    abandonments t.abandonedWork w reason = abandonments s.abandonedWork w reason + 1 ∧
    ((abandonments t.abandonedWork w reason ≤ expiredSessionRequeueLimit ∧ IsQueued t w) ∨
      (expiredSessionRequeueLimit < abandonments t.abandonedWork w reason ∧ IsFailed t w ∧
        (IsQueued t w ↔ IsQueued s w)))

/-- **What a recovery does to one item.** -/
def Recovery (reason w : String) (s t : Store) : Prop := Untouched reason w s t ∨ ExpiredOnce reason w s t

theorem Recovery.refl (s : Store) : Recovery reason w s s := .inl ⟨Iff.rfl, Iff.rfl, id, rfl⟩

/-- An item expires at most once in a recovery: nothing starts it again. -/
theorem Recovery.trans (s t u : Store) (h₁ : Recovery reason w s t) (h₂ : Recovery reason w t u) :
    Recovery reason w s u := by
  rcases h₁ with ⟨hr₁, hq₁, hf₁, hc₁⟩ | ⟨hrs, hrt, hc₁, hout₁⟩
  · rcases h₂ with ⟨hr₂, hq₂, hf₂, hc₂⟩ | ⟨hrt, hru, hc₂, hout₂⟩
    · exact .inl ⟨hr₂.trans hr₁, hq₂.trans hq₁, fun h => hf₂ (hf₁ h), hc₂.trans hc₁⟩
    · rw [hq₁] at hout₂
      exact .inr ⟨hr₁.1 hrt, hru, by rw [hc₂, hc₁], hout₂⟩
  · rcases h₂ with ⟨hr₂, hq₂, hf₂, hc₂⟩ | ⟨hrunning, _⟩
    · refine .inr ⟨hrs, fun h => hrt (hr₂.1 h), by rw [hc₂, hc₁], ?_⟩
      rw [hc₂, hq₂]
      exact hout₁.imp_right fun ⟨hlt, hfailed, hq⟩ => ⟨hlt, hf₂ hfailed, hq⟩
    · exact absurd hrunning hrt

theorem Recovery.of_move {request : RecoverExpiredWorkerSessionsRequest} (h : Move db e db')
    (hcause : Expires request e) (hreason : request.reason = reason) (hstop : reason ≠ workerStopped) :
    Recovery reason w db db' := by
  by_cases he : e.Expires w reason
  · obtain ⟨hcount, hout⟩ := h.expiry he
    refine .inr ?_
    rcases hout with ⟨haction, hle⟩ | ⟨haction, hlt⟩
    · refine ⟨h.running_of_requeue haction, ?_, hcount, .inl ⟨hle, h.isQueued.2 (.inr (.inr haction))⟩⟩
      rw [h.isRunning, haction]
      simp
    · refine ⟨h.running_of_fail haction, ?_, hcount, .inr ⟨hlt, h.isFailed.2 (.inr haction), ?_⟩⟩
      · rw [h.isRunning, haction]
        simp
      · rw [h.isQueued, haction]
        simp
  · -- An idle session expired, or the session of another item.
    obtain ⟨hclaim, henqueue, hcomplete, hfail, hrequeue⟩ : e.action ≠ .claim w ∧ e.action ≠ .enqueue w ∧
        e.action ≠ .complete w ∧ e.action ≠ .fail w ∧ e.action ≠ .requeue w := by
      obtain ⟨_, _, rfl | ⟨running, rfl | rfl⟩⟩ := hcause
      · simp [Event.action]
      · simpa [Event.action, Event.Expires, hreason] using he
      · simpa [Event.action, Event.Expires, hreason] using he
    refine .inl ⟨?_, ?_, fun hf => h.isFailed.2 (.inl hf), h.abandonments_eq hstop he⟩
    · rw [h.isRunning]
      simp [hclaim, hcomplete, hfail, hrequeue]
    · rw [h.isQueued]
      simp [hclaim, henqueue, hrequeue]

/-- A recovery for the reason treats each item as described. -/
theorem Call.recovery {request : RecoverExpiredWorkerSessionsRequest}
    (hop : call.op = .recoverExpiredWorkerSessions request) (hreason : request.reason = reason)
    (hstop : reason ≠ workerStopped) (db : Store) : Recovery reason w db (call.step db) := by
  refine (call.moves db).rel Recovery.refl Recovery.trans fun s e t hcause hmove => ?_
  rw [hop] at hcause
  exact Recovery.of_move hmove hcause hreason hstop

/-! ### The history of a run -/

/-- The operation recovers expired sessions. -/
def Op.isRecovery : Op → Bool
  | .recoverExpiredWorkerSessions _ => true
  | _ => false

/-- The operation, if it is a recovery, gives this reason. -/
def Op.recoversFor (reason : String) : Op → Bool
  | .recoverExpiredWorkerSessions request => request.reason == reason
  | _ => true

theorem Op.not_expires {op : Op} (hop : op.isRecovery = false) (h : op.causes e) : ¬ e.Expires w reason := by
  cases op with
  | insertWorkItems items | queueWorkItems request | enqueueWorkItems items | completeStageIfReady request =>
    cases e <;> first | exact id | exact fun _ => h
  | claimNextWork request | completeAttempt request | failAttempt request =>
    obtain ⟨_, rfl⟩ := h
    exact id
  | registerWorkerSession request => rcases h with rfl | rfl <;> exact id
  | stopWorkerSessionAndRecoverWork request => rcases h with rfl | ⟨_, rfl⟩ <;> exact id
  | recoverExpiredWorkerSessions request => cases hop
  | _ =>
    cases h
    exact id

/-- A step of a run in which an attempt on the item expired: a recovery took it out of the running work. -/
def Expired (w : String) (x : Store × Call × Store) : Prop :=
  x.2.1.op.isRecovery = true ∧ IsRunning x.1 w ∧ ¬ IsRunning x.2.2 w

/-- A step of a run in which a recovery put the item in the queue. -/
def Requeued (w : String) (x : Store × Call × Store) : Prop :=
  x.2.1.op.isRecovery = true ∧ ¬ IsQueued x.1 w ∧ IsQueued x.2.2 w

instance (x : Store × Call × Store) : Decidable (Expired w x) := inferInstanceAs (Decidable (_ ∧ _))

instance (x : Store × Call × Store) : Decidable (Requeued w x) := inferInstanceAs (Decidable (_ ∧ _))

/-- How many attempts on the item have expired in a run. -/
def expiries (w : String) (calls : List Call) : ℕ := (steps calls).countP (Expired w ·)

/-- How often recoveries have put the item in the queue in a run. -/
def requeues (w : String) (calls : List Call) : ℕ := (steps calls).countP (Requeued w ·)

variable {calls : List Call}

theorem countP_steps_concat {P : Store × Call × Store → Prop} [DecidablePred P] :
    (steps (calls ++ [call])).countP (P ·) = (steps calls).countP (P ·) + if P (nextStep calls call) then 1 else 0 := by
  rw [steps_concat, List.countP_append, List.countP_singleton]
  simp

/-- The next call of a run lets an attempt on the item expire, or it neither counts nor requeues. -/
theorem nextStep_cases (hcall : call.op.recoversFor reason = true) (hstop : reason ≠ workerStopped) :
    (¬ Expired w (nextStep calls call) ∧ ¬ Requeued w (nextStep calls call) ∧
      abandonments (after (calls ++ [call])).abandonedWork w reason =
        abandonments (after calls).abandonedWork w reason) ∨
    (Expired w (nextStep calls call) ∧ ExpiredOnce reason w (after calls) (after (calls ++ [call]))) := by
  by_cases hop : call.op.isRecovery = true
  · obtain ⟨request, hrequest⟩ : ∃ request, call.op = .recoverExpiredWorkerSessions request := by
      cases hcase : call.op <;> simp_all [Op.isRecovery]
    have hreason : request.reason = reason := by simpa [hrequest, Op.recoversFor] using hcall
    have hrecovery := Call.recovery (w := w) hrequest hreason hstop (after calls)
    rw [← after_concat] at hrecovery
    rcases hrecovery with ⟨hrunning, hqueued, _, hcount⟩ | hexpired
    · exact .inl ⟨fun h => h.2.2 (hrunning.2 h.2.1), fun h => h.2.1 (hqueued.1 h.2.2), hcount⟩
    · exact .inr ⟨⟨hop, hexpired.1, hexpired.2.1⟩, hexpired⟩
  · refine .inl ⟨fun h => hop h.1, fun h => hop h.1, ?_⟩
    rw [after_concat]
    refine (call.moves _).invariant
      (P := fun db => abandonments db.abandonedWork w reason = abandonments (after calls).abandonedWork w reason)
      (fun s e t hcause hmove hs => ?_) rfl
    rw [hmove.abandonments_eq hstop (Op.not_expires (by simpa using hop) hcause), hs]

/-- **The invariant of the ceiling**: the count in the database is the number of expiries in the
history, every requeue was one of them, and the item is within the ceiling. -/
structure Ceiling (reason w : String) (calls : List Call) : Prop where
  expiries_eq : expiries w calls = abandonments (after calls).abandonedWork w reason
  requeues_le_expiries : requeues w calls ≤ expiries w calls
  requeues_le_limit : requeues w calls ≤ expiredSessionRequeueLimit
  within : WithinCeiling reason w (after calls)

theorem Ceiling.nil : Ceiling reason w [] where
  expiries_eq := rfl
  requeues_le_expiries := le_rfl
  requeues_le_limit := Nat.zero_le _
  within := ⟨fun h => Table.not_has_empty h.1, fun h => absurd h (Nat.not_lt_zero _)⟩

theorem Ceiling.concat (h : Ceiling reason w calls) (hstop : reason ≠ workerStopped)
    (hcall : call.op.recoversFor reason = true) (henqueue : EnqueuesWithin reason w (after calls) call)
    : Ceiling reason w (calls ++ [call]) := by
  have hwithin : WithinCeiling reason w (after (calls ++ [call])) := by
    rw [after_concat]
    exact h.within.step hstop henqueue
  have heq := h.expiries_eq
  have hle := h.requeues_le_expiries
  have hlimit := h.requeues_le_limit
  have hexpiries : expiries w (calls ++ [call]) = expiries w calls + _ := countP_steps_concat
  have hrequeues : requeues w (calls ++ [call]) = requeues w calls + _ := countP_steps_concat
  rcases nextStep_cases (w := w) hcall hstop with ⟨hexpired, hrequeued, hcount⟩ | ⟨hexpired, hr, hr', hcount, hout⟩
  · rw [if_neg hexpired] at hexpiries
    rw [if_neg hrequeued] at hrequeues
    exact ⟨by omega, by omega, by omega, hwithin⟩
  · rw [if_pos hexpired] at hexpiries
    by_cases hrequeued : Requeued w (nextStep calls call)
    · rw [if_pos hrequeued] at hrequeues
      -- Beyond the limit the recovery does not touch the queue.
      have hwithinLimit : abandonments (after (calls ++ [call])).abandonedWork w reason
          ≤ expiredSessionRequeueLimit := by
        rcases hout with ⟨hle, _⟩ | ⟨_, _, hqueued⟩
        · exact hle
        · exact absurd (hqueued.1 hrequeued.2.2) hrequeued.2.1
      exact ⟨by omega, by omega, by omega, hwithin⟩
    · rw [if_neg hrequeued] at hrequeues
      exact ⟨by omega, by omega, by omega, hwithin⟩

/-- The calls of a run keep to one reason and enqueue the item within its ceiling. -/
structure KeepsCeiling (reason w : String) (db : Store) (call : Call) : Prop where
  recovers : call.op.recoversFor reason = true
  enqueues : EnqueuesWithin reason w db call

instance (db : Store) (call : Call) : Decidable (KeepsCeiling reason w db call) :=
  decidable_of_iff (call.op.recoversFor reason = true ∧ EnqueuesWithin reason w db call)
    ⟨fun h => ⟨h.1, h.2⟩, fun h => ⟨h.1, h.2⟩⟩

theorem ceiling_of_steps (hstop : reason ≠ workerStopped) (hcalls : ∀ x ∈ steps calls, KeepsCeiling reason w x.1 x.2.1)
    : Ceiling reason w calls :=
  run_history Ceiling.nil (fun _ _ hcall h => h.concat hstop hcall.recovers hcall.enqueues) hcalls

/-- **The retry ceiling.** In a run whose recoveries give one reason, other than the one that stops
record, and whose calls do not enqueue the item while it runs or after its retries are used up:
recoveries put the item in the queue at most three times; each of its first three expiries puts it back
in the queue, whatever else has happened, and every later one fails it and leaves it out of the queue;
and after four expiries it has failed and is neither queued nor running. -/
theorem retry_ceiling (reason w : String) (hstop : reason ≠ workerStopped) (calls : List Call)
    (hcalls : ∀ x ∈ steps calls, KeepsCeiling reason w x.1 x.2.1) :
    requeues w calls ≤ 3 ∧
    (∀ earlier call later, calls = earlier ++ call :: later → Expired w (nextStep earlier call) →
      (expiries w earlier < 3 → IsQueued (after (earlier ++ [call])) w) ∧
      (3 ≤ expiries w earlier →
        IsFailed (after (earlier ++ [call])) w ∧ ¬ IsQueued (after (earlier ++ [call])) w)) ∧
    ∀ earlier later, calls = earlier ++ later → 4 ≤ expiries w earlier →
      IsFailed (after earlier) w ∧ ¬ IsQueued (after earlier) w ∧ ¬ IsRunning (after earlier) w := by
  have hinit : ∀ earlier later, calls = earlier ++ later → Ceiling reason w earlier := by
    rintro earlier later rfl
    exact ceiling_of_steps hstop fun x hx => hcalls x (steps_subset_append later hx)
  refine ⟨(ceiling_of_steps hstop hcalls).requeues_le_limit, ?_, ?_⟩
  · intro earlier call later hsplit hexpired
    have hnext := hinit (earlier ++ [call]) later (by simp [hsplit])
    have hcount : expiries w (earlier ++ [call]) = expiries w earlier + _ := countP_steps_concat
    rw [if_pos hexpired] at hcount
    have hcall : call.op.recoversFor reason = true :=
      (hcalls _ (hsplit ▸ nextStep_mem earlier call later)).recovers
    constructor
    · intro hlt
      rcases nextStep_cases (w := w) hcall hstop with ⟨hnot, _⟩ | ⟨_, _, _, _, ⟨_, hqueued⟩ | ⟨hlimit, _⟩⟩
      · exact absurd hexpired hnot
      · exact hqueued
      · rw [← hnext.expiries_eq, hcount, expiredSessionRequeueLimit] at hlimit
        omega
    · intro hle
      have hexhausted := hnext.within.exhausted (by
        rw [← hnext.expiries_eq, hcount, expiredSessionRequeueLimit]
        omega)
      exact ⟨hexhausted.1, hexhausted.2.1⟩
  · intro earlier later hsplit hle
    have h := hinit earlier later hsplit
    refine h.within.exhausted ?_
    rw [← h.expiries_eq, expiredSessionRequeueLimit]
    omega

open Sample

/-- A round in which a new session of the worker claims work and stops sending heartbeats. -/
def Sample.lostRound (name : String) : List Call :=
  [register "worker" name, claim name "worker" name, expire]

/-- A round in which a new session of the worker claims work and is stopped. -/
def Sample.stoppedRound (name : String) : List Call :=
  [register "worker" name, claim name "worker" name,
    ⟨true, .stopWorkerSessionAndRecoverWork ⟨"worker", name, second 4, "shutdown"⟩⟩]

/-- One item, four lost sessions and a stop. -/
def Sample.fiveRounds : List Call :=
  submission ++ [queue "a" 0 []] ++ lostRound "s0" ++ stoppedRound "s1" ++
    lostRound "s2" ++ lostRound "s3" ++ lostRound "s4"

/-- Recoveries requeue the item at most three times in the five rounds, after which it has failed. -/
theorem retry_ceiling_sample :
    requeues "a" fiveRounds ≤ 3 ∧ IsFailed (after fiveRounds) "a" ∧
      ¬ IsQueued (after fiveRounds) "a" ∧ ¬ IsRunning (after fiveRounds) "a" := by
  have h := retry_ceiling "heartbeat_expired" "a" (by decide) fiveRounds (by decide +kernel)
  exact ⟨h.1, h.2.2 fiveRounds [] (by simp) (by decide +kernel)⟩

/-- An item whose retries are used up is enqueued again and claimed; and recoveries that give the reason
of the stops fail an item at its first expiry, after three stops. -/
theorem retries_used_up :
    (let calls := submission ++ [queue "a" 0 []] ++ lostRound "s0" ++
        lostRound "s1" ++ lostRound "s2" ++ lostRound "s3"
      let again : Call := ⟨true, .enqueueWorkItems [queued "a" 0 (second 5)]⟩
      let claim := [register "worker" "s4", claim "s4" "worker" "s4"]
      (∀ call ∈ calls ++ again :: claim, call.op.recoversFor "heartbeat_expired" = true) ∧
        expiries "a" calls = 4 ∧ IsFailed (after calls) "a" ∧ IsQueued (after (calls ++ [again])) "a" ∧
        IsRunning (after (calls ++ again :: claim)) "a") ∧
    (let calls := submission ++ [queue "a" 0 []] ++ stoppedRound "s0" ++
        stoppedRound "s1" ++ stoppedRound "s2" ++
        [register "worker" "s3", claim "s3" "worker" "s3"]
      let request : RecoverExpiredWorkerSessionsRequest := ⟨second 3, second 4, workerStopped⟩
      let recovery : Call := ⟨true, .recoverExpiredWorkerSessions request⟩
      expiries "a" calls = 0 ∧ IsRunning (after calls) "a" ∧ IsFailed (after (calls ++ [recovery])) "a" ∧
        ¬ IsQueued (after (calls ++ [recovery])) "a") := by
  decide +kernel

end GoEtl.Persistence
