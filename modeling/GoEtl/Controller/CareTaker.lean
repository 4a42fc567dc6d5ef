import GoEtl.Controller.WorkerExecution
import GoEtl.Persistence.Heartbeats

/-!
# The caretaker

`cmd/controller/caretaker.go`: the caretaker recovers expired sessions, forgets reservations that have expired and starts
workers, and then sleeps until the next thing is due. Times are in nanoseconds; a time that is not set is nothing here, the
zero time in the source.

The next wake-up is the earliest of the due times, and not before the present (`calculateCareTakerNextWake_spec`). A session
expires a nanosecond after its due time, and so does a reservation: at the due time itself they are kept, and due again at
once. At all other times what is left after a reconcile that could recover is due later (`caretaker_sleeps`).
-/

namespace GoEtl.Controller

open Library Persistence Persistence.Sample Text

/-- `CareTakerConfig`. -/
structure CareTakerConfig where
  (deadAfter inflightStartTimeout fallbackInterval retryInitial retryMaximum : ℤ)
  workerExecution : WorkerExecutionConfig

/-- The reasons of a wake-up. -/
inductive WakeReason where
  | workerExpiry | inflightStartExpiry | retry | fallbackSweep
  deriving DecidableEq

/-- `CareTakerNextWake`. -/
structure CareTakerNextWake where
  time : ℤ
  reason : WakeReason
  deriving DecidableEq

/-- `consider` in `calculateCareTakerNextWake`. -/
def consider (now : ℤ) (next : Option CareTakerNextWake) (due : ℤ × WakeReason) : Option CareTakerNextWake :=
  let time := max due.1 now
  match next with
  | none => some ⟨time, due.2⟩
  | some wake => if time < wake.time then some ⟨time, due.2⟩ else some wake

/-- The delay of a retry, between the bounds. -/
def boundedRetryDelay (cfg : CareTakerConfig) (retryDelay : ℤ) : ℤ :=
  let delay := if 0 < cfg.retryMaximum ∧ cfg.retryMaximum < retryDelay then cfg.retryMaximum else retryDelay
  if 0 < cfg.retryInitial ∧ delay < cfg.retryInitial then cfg.retryInitial else delay

/-- The due times that `calculateCareTakerNextWake` considers, in its order. -/
def dueTimes (now : ℤ) (cfg : CareTakerConfig) (earliestHeartbeat : Option ℤ) (starts : List WorkerStartReservation)
    (retryDelay : ℤ) : List (ℤ × WakeReason) :=
  (if 0 < cfg.deadAfter then earliestHeartbeat.toList.map fun beat => (beat + cfg.deadAfter, .workerExpiry) else []) ++
  (if 0 < cfg.inflightStartTimeout then starts.map fun reservation =>
    (reservation.createdAt + cfg.inflightStartTimeout, .inflightStartExpiry) else []) ++
  (if 0 < retryDelay then [(now + boundedRetryDelay cfg retryDelay, .retry)] else []) ++
  (if 0 < cfg.fallbackInterval then [(now + cfg.fallbackInterval, .fallbackSweep)] else [])

/-- `calculateCareTakerNextWake`. -/
def calculateCareTakerNextWake (now : ℤ) (cfg : CareTakerConfig) (earliestHeartbeat : Option ℤ)
    (starts : List WorkerStartReservation) (retryDelay : ℤ) : Option CareTakerNextWake :=
  (dueTimes now cfg earliestHeartbeat starts retryDelay).foldl (consider now) none

/-- `noteReconcileError`: the doubled delay may wrap around. -/
def noteReconcileError (cfg : CareTakerConfig) (retryDelay : ℤ) : ℤ :=
  if cfg.retryInitial ≤ 0 then 0
  else if retryDelay ≤ 0 then cfg.retryInitial
  else
    let doubled := (retryDelay * 2).bmod (2 ^ 64)
    if 0 < cfg.retryMaximum ∧ cfg.retryMaximum < doubled then cfg.retryMaximum else doubled

/-- The store, and what the `CareTaker` remembers. -/
structure CareState where
  store : Store
  manager : WorkerCapacityManager
  retryDelay : ℤ

/-- The state after a reconcile, whether it failed, and the next wake-up. -/
structure ReconcileResult where
  state : CareState
  failed : Bool
  nextWake : Option CareTakerNextWake

/-- What a reconcile meets: the time and the cutoff that belongs to it, errors of the connection to the store, the demand
and the outcome of a launch. -/
structure CareTurn where
  (now cutoff : Instant)
  (foreignKeys recoveryFails : Bool)
  demand : Except String WorkerDemand
  launch : ℕ → Option String

/-- `RecoverExpiredWorkerSessions` of the controller. -/
def CareTurn.recover (turn : CareTurn) (store : Store) : Option Store :=
  if turn.recoveryFails then none
  else
    match recoverExpiredWorkerSessions turn.foreignKeys ⟨turn.cutoff.format, turn.now.format, "heartbeat_expired"⟩ store with
    | .ok (_, store) => some store
    | .error _ => none

/-- `errWorkerTargetEnvironmentNotConfigured`. -/
def notConfigured : String := "worker_target_environment is not configured"

section

variable (parse : String → Except String ℤ) (cfg : CareTakerConfig)

/-- `WorkerCapacitySnapshot`: the demand, and the earliest heartbeat of the live sessions. The texts are read by
`time.Parse`. -/
def capacitySnapshot (turn : CareTurn) (store : Store) : Except String (WorkerDemand × Option ℤ) := do
  let demand ← turn.demand
  let beats ← (listLiveWorkerSessions store turn.cutoff).mapM fun session =>
    (parse session.lastHeartbeatAt).mapError (("parse worker session heartbeat " ++ session.id ++ ": ") ++ ·)
  pure (demand, beats.min?)

/-- The end of a reconcile that fails. -/
def failReconcile (now : ℤ) (state : CareState) (earliestHeartbeat : Option ℤ) : ReconcileResult :=
  let delay := noteReconcileError cfg state.retryDelay
  ⟨{ state with retryDelay := delay }, true,
    calculateCareTakerNextWake now cfg earliestHeartbeat state.manager.inflightStarts delay⟩

/-- `reconcileDetailed`. -/
def reconcileDetailed (state : CareState) (turn : CareTurn) : ReconcileResult :=
  let now : ℤ := turn.now.nanoseconds
  match turn.recover state.store with
  | none => failReconcile cfg now state none
  | some store =>
    let pruned := state.manager.pruneExpiredInflightStarts now cfg.inflightStartTimeout
    match capacitySnapshot parse turn store with
    | .error _ => failReconcile cfg now { state with store := store, manager := pruned } none
    | .ok (demand, earliestHeartbeat) =>
      let evaluation := evaluateDemand pruned now cfg.workerExecution demand turn.launch
      if evaluation.error = none ∨ evaluation.error = some notConfigured then
        ⟨⟨store, evaluation.manager, 0⟩, false,
          calculateCareTakerNextWake now cfg earliestHeartbeat evaluation.manager.inflightStarts 0⟩
      else failReconcile cfg now { state with store := store, manager := evaluation.manager } earliestHeartbeat

end

/-! ### The next wake-up -/

variable {cfg : CareTakerConfig}

theorem consider_eq (now : ℤ) (next : Option CareTakerNextWake) (due : ℤ × WakeReason) :
    ∃ wake, consider now next due = some wake ∧ (next = some wake ∨ wake = ⟨max due.1 now, due.2⟩) ∧
      (∀ other ∈ next, wake.time ≤ other.time) ∧ wake.time ≤ max due.1 now := by
  cases next with
  | none => exact ⟨_, rfl, .inr rfl, by simp, le_refl _⟩
  | some other =>
    simp only [consider]
    split_ifs with hlt
    · exact ⟨_, rfl, .inr rfl, by simpa using hlt.le, le_refl _⟩
    · exact ⟨other, rfl, .inl rfl, by simp, not_lt.1 hlt⟩

/-- Considering due times one after the other gives the earliest of them. -/
theorem foldl_consider (now : ℤ) (dues : List (ℤ × WakeReason)) (next : Option CareTakerNextWake) (h : next.isSome ∨ dues ≠ []) :
    ∃ wake, dues.foldl (consider now) next = some wake ∧
      (next = some wake ∨ ∃ due ∈ dues, wake = ⟨max due.1 now, due.2⟩) ∧
      (∀ other ∈ next, wake.time ≤ other.time) ∧ ∀ due ∈ dues, wake.time ≤ max due.1 now := by
  induction dues generalizing next with
  | nil =>
    obtain ⟨wake, rfl⟩ := Option.isSome_iff_exists.1 (h.resolve_right (· rfl))
    exact ⟨wake, rfl, .inl rfl, by simp, by simp⟩
  | cons due dues ih =>
    obtain ⟨first, hfirst, hfrom, hnext, hdue⟩ := consider_eq now next due
    obtain ⟨wake, hwake, hfrom', hle, hrest⟩ := ih (some first) (.inl rfl)
    have hle : wake.time ≤ first.time := hle first rfl
    refine ⟨wake, by rw [List.foldl_cons, hfirst, hwake], ?_, fun other hother => hle.trans (hnext other hother),
      List.forall_mem_cons.2 ⟨hle.trans hdue, hrest⟩⟩
    rcases hfrom' with heq | ⟨due', hdue', heq⟩
    · obtain rfl := Option.some.inj heq
      exact hfrom.imp id fun heq => ⟨due, by simp, heq⟩
    · exact .inr ⟨due', by simp [hdue'], heq⟩

/-- **The next wake-up is the earliest of the due times, and not before the present.** -/
theorem calculateCareTakerNextWake_spec (hfallback : 0 < cfg.fallbackInterval) (now : ℤ) (earliestHeartbeat : Option ℤ)
    (starts : List WorkerStartReservation) (retryDelay : ℤ) :
    ∃ wake, calculateCareTakerNextWake now cfg earliestHeartbeat starts retryDelay = some wake ∧
      IsLeast {t | ∃ due ∈ dueTimes now cfg earliestHeartbeat starts retryDelay, t = max due.1 now} wake.time ∧
      ∃ due ∈ dueTimes now cfg earliestHeartbeat starts retryDelay, wake = ⟨max due.1 now, due.2⟩ := by
  obtain ⟨wake, hwake, hfrom, _, hle⟩ := foldl_consider now (dueTimes now cfg earliestHeartbeat starts retryDelay)
    none (.inr (by simp [dueTimes, hfallback]))
  obtain ⟨due, hdue, rfl⟩ := hfrom.resolve_left (by simp)
  exact ⟨_, hwake, ⟨⟨due, hdue, rfl⟩, by rintro _ ⟨other, hother, rfl⟩; exact hle other hother⟩, due, hdue, rfl⟩

/-- The configurations of the claim: durations are positive, the delays of retries are ordered and can be doubled, and a
reservation can expire. -/
structure CareTakerConfig.Sound (cfg : CareTakerConfig) : Prop where
  deadAfter : 0 < cfg.deadAfter
  inflight : 0 < cfg.inflightStartTimeout ∧ cfg.inflightStartTimeout < 2 ^ 63 - 1
  fallback : 0 < cfg.fallbackInterval
  retry : 0 < cfg.retryInitial ∧ cfg.retryInitial ≤ cfg.retryMaximum ∧ cfg.retryMaximum < 2 ^ 62

variable {earliestHeartbeat : Option ℤ}

variable {now : ℤ}

theorem dueTimes_later (hcfg : cfg.Sound) {starts : List WorkerStartReservation} {retryDelay : ℤ}
    (hbeat : ∀ beat ∈ earliestHeartbeat, now < beat + cfg.deadAfter)
    (hstarts : ∀ reservation ∈ starts, now < reservation.createdAt + cfg.inflightStartTimeout) :
    ∀ due ∈ dueTimes now cfg earliestHeartbeat starts retryDelay, now < due.1 := by
  have hretry := hcfg.retry
  have hfallback := hcfg.fallback
  simp only [dueTimes, List.forall_mem_append, if_pos hcfg.deadAfter, if_pos hcfg.inflight.1, if_pos hfallback]
  refine ⟨⟨⟨by simpa using hbeat, by simpa using hstarts⟩, ?_⟩, by simpa using hfallback⟩
  split_ifs with hdelay
  · simp only [List.mem_singleton, forall_eq, boundedRetryDelay]
    split_ifs <;> omega
  · simp

/-- If all that is due is later, so is the wake-up. -/
theorem calculate_later (hcfg : cfg.Sound) {starts : List WorkerStartReservation} {retryDelay : ℤ}
    (hbeat : ∀ beat ∈ earliestHeartbeat, now < beat + cfg.deadAfter)
    (hstarts : ∀ reservation ∈ starts, now < reservation.createdAt + cfg.inflightStartTimeout) :
    ∃ wake, calculateCareTakerNextWake now cfg earliestHeartbeat starts retryDelay = some wake ∧ now < wake.time := by
  obtain ⟨wake, hwake, _, due, hdue, rfl⟩ := calculateCareTakerNextWake_spec hcfg.fallback now earliestHeartbeat starts
    retryDelay
  exact ⟨_, hwake, lt_max_of_lt_left (dueTimes_later hcfg hbeat hstarts due hdue)⟩

/-! ### Reconciles -/

/-- A reservation after an evaluation was there before, or was made by it. -/
theorem mem_evaluateDemand {m : WorkerCapacityManager} {execution : WorkerExecutionConfig} {demand : WorkerDemand}
    {launch : ℕ → Option String} {reservation : WorkerStartReservation}
    (h : reservation ∈ (evaluateDemand m now execution demand launch).manager.inflightStarts) :
    reservation ∈ m.inflightStarts ∨ reservation.createdAt = now := by
  have hpruned : ∀ x ∈ (m.pruneExpiredInflightStarts now execution.inflightStartTimeout).inflightStarts, x ∈ m.inflightStarts :=
    (unexpiredInflightStarts_sublist ..).subset
  have hreserved : ∀ count, ∀ x ∈ ((m.pruneExpiredInflightStarts now execution.inflightStartTimeout).reserveInflightStarts
      now count).inflightStarts, x ∈ m.inflightStarts ∨ x.createdAt = now := by
    intro count x hx
    rcases List.mem_append.1 hx with hx | hx
    · exact .inl (hpruned x hx)
    · obtain ⟨_, _, rfl⟩ := List.mem_map.1 hx
      exact .inr rfl
  simp only [evaluateDemand] at h
  split at h
  · exact .inl h
  · split_ifs at h
    · exact .inl (hpruned _ h)
    · split at h
      · exact hreserved _ _ (List.mem_filter.1 h).1
      · exact hreserved _ _ h

/-- The state and the turn of a reconcile that does not run at the very time when something is due: the recovery does not
fail, and every heartbeat is the text of an instant that is not the cutoff and compares with it as a text does. -/
structure CareTurn.OffTime (cfg : CareTakerConfig) (state : CareState) (turn : CareTurn) : Prop where
  cutoff : turn.cutoff.nanoseconds + cfg.deadAfter = turn.now.nanoseconds
  recovers : (turn.recover state.store).isSome
  sessions : ∀ session ∈ state.store.workerSessions, session.status = .active → ∃ beat : Instant,
    session.lastHeartbeatAt = beat.format ∧ SameOrder beat turn.cutoff ∧ beat.nanoseconds ≠ turn.cutoff.nanoseconds
  reservations : ∀ reservation ∈ state.manager.inflightStarts,
    reservation.createdAt + cfg.inflightStartTimeout ≠ turn.now.nanoseconds

variable {state : CareState} {turn : CareTurn}

/-- A session is kept by the recovery only if it expires later. -/
theorem CareTurn.OffTime.live (h : turn.OffTime cfg state) {store : Store}
    (hstore : turn.recover state.store = some store) {session : WorkerSessionRecord}
    (hmem : session ∈ store.workerSessions) (hactive : session.status = .active)
    : ∃ beat : Instant, session.lastHeartbeatAt = beat.format ∧
      (turn.now.nanoseconds : ℤ) < beat.nanoseconds + cfg.deadAfter := by
  unfold CareTurn.recover at hstore
  split_ifs at hstore
  split at hstore
  · rename_i hrecover
    cases hstore
    obtain ⟨hold, hlive⟩ := (mem_recoverExpiredWorkerSessions hrecover hactive).1 hmem
    obtain ⟨beat, hbeat, horder, hne⟩ := h.sessions session hold hactive
    rw [← Bool.not_eq_true, isExpired_iff hactive hbeat, horder.lt_iff] at hlive
    have hcutoff := h.cutoff
    exact ⟨beat, hbeat, by omega⟩
  · cases hstore

variable {parse : String → Except String ℤ}

/-- The earliest heartbeat of the live sessions is that of one of them. -/
theorem CareTurn.OffTime.earliest
    (hparse : ∀ t : Instant, parse t.format = .ok (t.nanoseconds : ℤ)) (h : turn.OffTime cfg state) {store : Store}
    (hstore : turn.recover state.store = some store) {demand : WorkerDemand}
    (hsnapshot : capacitySnapshot parse turn store = .ok (demand, earliestHeartbeat)) :
    ∀ beat ∈ earliestHeartbeat, (turn.now.nanoseconds : ℤ) < beat + cfg.deadAfter := by
  intro beat hbeat
  obtain ⟨_, _, hsnapshot⟩ := except_bind_ok.1 hsnapshot
  obtain ⟨beats, hbeats, hsnapshot⟩ := except_bind_ok.1 hsnapshot
  cases hsnapshot
  obtain ⟨session, hsession, hparsed⟩ := mapM_mem hbeats (List.min?_mem hbeat)
  rw [listLiveWorkerSessions, List.mem_insertionSort, List.mem_filter, Bool.and_eq_true, beq_iff_eq] at hsession
  obtain ⟨instant, hinstant, hlater⟩ := h.live hstore (Table.mem_rows.1 hsession.1) hsession.2.1
  rw [mapError_ok, hinstant, hparse] at hparsed
  exact Except.ok.inj hparsed ▸ hlater

/-- A reservation that pruning keeps expires later. -/
theorem CareTurn.OffTime.pruned (hcfg : cfg.Sound) (h : turn.OffTime cfg state) :
    ∀ reservation ∈ (state.manager.pruneExpiredInflightStarts turn.now.nanoseconds cfg.inflightStartTimeout).inflightStarts,
      (turn.now.nanoseconds : ℤ) < reservation.createdAt + cfg.inflightStartTimeout := by
  intro reservation hmem
  have hpos := hcfg.inflight
  simp only [WorkerCapacityManager.pruneExpiredInflightStarts, unexpiredInflightStarts, if_neg (not_le.2 hpos.1),
    List.mem_filter, since] at hmem
  have hkept := of_decide_eq_true hmem.2
  have hne := h.reservations reservation hmem.1
  omega

/-- What a reconcile leads to, with the heartbeat that its next wake-up is calculated from. -/
structure Reconciled (parse : String → Except String ℤ) (cfg : CareTakerConfig) (state : CareState) (turn : CareTurn)
    (result : ReconcileResult) (earliestHeartbeat : Option ℤ) : Prop where
  wake : result.nextWake = calculateCareTakerNextWake turn.now.nanoseconds cfg earliestHeartbeat
    result.state.manager.inflightStarts result.state.retryDelay
  retry : result.failed = true → result.state.retryDelay = noteReconcileError cfg state.retryDelay
  heartbeat : (result.failed = true ∧ earliestHeartbeat = none) ∨
    ∃ demand, capacitySnapshot parse turn result.state.store = .ok (demand, earliestHeartbeat)
  recovered : ∀ store, turn.recover state.store = some store → result.state.store = store ∧
    ∀ reservation ∈ result.state.manager.inflightStarts, reservation.createdAt = turn.now.nanoseconds ∨
      reservation ∈ (state.manager.pruneExpiredInflightStarts turn.now.nanoseconds cfg.inflightStartTimeout).inflightStarts

/-- **The cases of a reconcile**: no recovery, no snapshot, an evaluation that fails, and one that does not. -/
theorem exists_reconciled (parse : String → Except String ℤ) (cfg : CareTakerConfig) (state : CareState) (turn : CareTurn) :
    ∃ earliestHeartbeat, Reconciled parse cfg state turn (reconcileDetailed parse cfg state turn) earliestHeartbeat := by
  cases hrecover : turn.recover state.store with
  | none => refine ⟨none, ?_, ?_, ?_, by simp [hrecover]⟩ <;> simp [reconcileDetailed, hrecover, failReconcile]
  | some store =>
    cases hsnapshot : capacitySnapshot parse turn store with
    | error text =>
      refine ⟨none, ?_, ?_, ?_, ?_⟩ <;> simp +contextual [reconcileDetailed, hrecover, hsnapshot, failReconcile]
    | ok snapshot =>
      obtain ⟨demand, earliestHeartbeat⟩ := snapshot
      simp only [reconcileDetailed, hrecover, hsnapshot, failReconcile]
      refine ⟨earliestHeartbeat, ?_⟩
      split_ifs
      all_goals
        refine ⟨rfl, by simp, .inr ⟨demand, hsnapshot⟩, fun other hother => ?_⟩
        obtain rfl := Option.some.inj (hrecover.symm.trans hother)
        exact ⟨rfl, fun reservation hmem => (mem_evaluateDemand hmem).symm⟩

/-- All that is left after a reconcile is due later. -/
structure Asleep (cfg : CareTakerConfig) (now : ℤ) (result : ReconcileResult) : Prop where
  wake : ∃ wake, result.nextWake = some wake ∧ now < wake.time
  sessions : ∀ session ∈ result.state.store.workerSessions, session.status = .active →
    ∃ beat : Instant, session.lastHeartbeatAt = beat.format ∧ now < beat.nanoseconds + cfg.deadAfter
  reservations : ∀ reservation ∈ result.state.manager.inflightStarts, now < reservation.createdAt + cfg.inflightStartTimeout

theorem CareTurn.OffTime.asleep
    (hparse : ∀ t : Instant, parse t.format = .ok (t.nanoseconds : ℤ)) (hcfg : cfg.Sound) (h : turn.OffTime cfg state) :
    Asleep cfg turn.now.nanoseconds (reconcileDetailed parse cfg state turn) := by
  obtain ⟨store, hstore⟩ := Option.isSome_iff_exists.1 h.recovers
  obtain ⟨earliestHeartbeat, hreconciled⟩ := exists_reconciled parse cfg state turn
  generalize reconcileDetailed parse cfg state turn = result at hreconciled
  obtain ⟨hsame, hstarts⟩ := hreconciled.recovered store hstore
  have hlater : ∀ reservation ∈ result.state.manager.inflightStarts,
      (turn.now.nanoseconds : ℤ) < reservation.createdAt + cfg.inflightStartTimeout := by
    intro reservation hmem
    rcases hstarts reservation hmem with hnow | hpruned
    · have hpos := hcfg.inflight.1
      omega
    · exact h.pruned hcfg reservation hpruned
  have hbeat : ∀ beat ∈ earliestHeartbeat, (turn.now.nanoseconds : ℤ) < beat + cfg.deadAfter := by
    rcases hreconciled.heartbeat with ⟨_, rfl⟩ | ⟨demand, hsnapshot⟩
    · simp
    · exact h.earliest hparse hstore (hsame ▸ hsnapshot)
  refine ⟨?_, fun session hmem => h.live hstore (hsame ▸ hmem), hlater⟩
  rw [hreconciled.wake]
  exact calculate_later hcfg hbeat hlater

/-! ### Retries -/

/-- **The delay after `n` errors**, by induction: doubled from the initial one on, and never above the maximum. -/
theorem iterate_noteReconcileError (hcfg : cfg.Sound) (n : ℕ) :
    (noteReconcileError cfg)^[n + 1] 0 = min (cfg.retryInitial * 2 ^ n) cfg.retryMaximum := by
  obtain ⟨hpos, hle, hmax⟩ := hcfg.retry
  induction n with
  | zero =>
    rw [Function.iterate_one, noteReconcileError, if_neg (not_le.2 hpos), if_pos le_rfl]
    omega
  | succ n ih =>
    have hgrow : cfg.retryInitial ≤ cfg.retryInitial * 2 ^ n := le_mul_of_one_le_right hpos.le (one_le_pow₀ (by omega))
    rw [Function.iterate_succ_apply', ih, noteReconcileError, if_neg (not_le.2 hpos), pow_succ (2 : ℤ) n, ← mul_assoc]
    generalize cfg.retryInitial * 2 ^ n = delay at hgrow
    rw [if_neg (by omega)]
    have hdouble : (min delay cfg.retryMaximum * 2).bmod (2 ^ 64) = min delay cfg.retryMaximum * 2 :=
      Int.bmod_eq_of_le (by simp; omega) (by simp; omega)
    simp only [hdouble]
    split_ifs <;> omega

/-- Reconciles one after the other. -/
def reconcileAll (parse : String → Except String ℤ) (cfg : CareTakerConfig) : CareState → List CareTurn → CareState :=
  run fun state turn => (reconcileDetailed parse cfg state turn).state

/-- All of them fail. -/
def AllFail (parse : String → Except String ℤ) (cfg : CareTakerConfig) (state : CareState) (turns : List CareTurn) : Prop :=
  ∀ x ∈ trace (fun state turn => (reconcileDetailed parse cfg state turn).state) state turns,
    (reconcileDetailed parse cfg x.1 x.2.1).failed = true

/-- Reconciles that all fail note an error each. -/
theorem retryDelay_reconcileAll (turns : List CareTurn) (state : CareState)
    (h : AllFail parse cfg state turns) :
    (reconcileAll parse cfg state turns).retryDelay = (noteReconcileError cfg)^[turns.length] state.retryDelay := by
  induction turns generalizing state with
  | nil => rfl
  | cons turn turns ih =>
    obtain ⟨hfirst, hrest⟩ := List.forall_mem_cons.1 h
    obtain ⟨_, hreconciled⟩ := exists_reconciled parse cfg state turn
    rw [List.length_cons, Function.iterate_succ_apply, ← hreconciled.retry hfirst]
    exact ih _ hrest

namespace Sample

/-- Durations of some nanoseconds. -/
def careTakerConfig : CareTakerConfig := ⟨100, 50, 1000, 10, 40, ⟨.unset, 2, 50⟩⟩

theorem careTakerConfig_sound : careTakerConfig.Sound := ⟨by decide, by decide, by decide, by decide⟩

/-- A turn some nanoseconds after noon. -/
def turnAt (nanosecond : ℕ) (h : 100 ≤ nanosecond ∧ nanosecond < 1000) : CareTurn where
  now := moment nanosecond (by omega)
  cutoff := moment (nanosecond - 100) (by omega)
  foreignKeys := true
  recoveryFails := false
  demand := .ok ⟨0, 0, 0, 0⟩
  launch _ := none

/-- A reservation, 50 nanoseconds before the turn at 200. -/
def reserved : CareState := ⟨Store.empty, ⟨[⟨"worker-start-1", (moment 150 (by decide)).nanoseconds⟩], 1⟩, 0⟩

/-- Texts of instants can be read. -/
theorem exists_parse : ∃ parse : String → Except String ℤ, ∀ t : Instant, parse t.format = .ok (t.nanoseconds : ℤ) := by
  classical
  refine ⟨fun text => if h : ∃ t : Instant, t.format = text then .ok h.choose.nanoseconds else .error "", fun t => ?_⟩
  have h : ∃ u : Instant, u.format = t.format := ⟨t, rfl⟩
  have hspec := h.choose_spec
  have horder : SameOrder h.choose t := (sameOrder_iff _ _).2
    ⟨fun hbegins => hspec.not_gt hbegins.spec.2, fun hbegins => hspec.not_lt hbegins.spec.2⟩
  simp only [dif_pos h, horder.eq_iff.1 hspec]

end Sample

end GoEtl.Controller
