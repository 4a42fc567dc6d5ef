import GoEtl.Library.Execution
import Mathlib.Algebra.Order.Ring.Int
import Mathlib.Data.List.Nodup

/-!
# Starting workers

`cmd/controller/worker_execution.go`: the capacity manager starts one worker after another while there is more work than
workers. A start is reserved until the worker registers or the reservation expires, and a launch that fails gives its
reservation back.

Times and durations are in nanoseconds, and counts are the lengths of lists, so that they do not overflow; the counter of
the ids is not bounded. The invariant of a run is `Bounded`: at most one reservation, with an id that was given out.
-/

namespace GoEtl.Controller

open Library

/-- `WorkerDemand`. -/
structure WorkerDemand where
  (pendingQueued pendingClaimable runningAttempts liveWorkerSessions : ℤ)
  deriving DecidableEq, Repr

/-- `WorkerStartReservation`. -/
structure WorkerStartReservation where
  id : String
  createdAt : ℤ
  deriving DecidableEq

/-- The patterns of a `WorkerExecutionConfig`; the default stands for one that is not set. -/
inductive ExecutionPattern where
  | unset | oneByOneUntilSaturated | null
  | unsupported (name : String)

/-- `WorkerExecutionConfig`. -/
structure WorkerExecutionConfig where
  pattern : ExecutionPattern
  (maxActiveWorkers inflightStartTimeout : ℤ)

/-- `WorkerStartPlan`. -/
structure WorkerStartPlan where
  startCount : ℕ
  reason : String

/-- `time.Time.Sub`, which saturates. -/
def since (now t : ℤ) : ℤ := max (-2 ^ 63) (min (2 ^ 63 - 1) (now - t))

/-- `UnexpiredInflightStarts`. -/
def unexpiredInflightStarts (starts : List WorkerStartReservation) (now timeout : ℤ) : List WorkerStartReservation :=
  if timeout ≤ 0 then starts else starts.filter fun reservation => decide (since now reservation.createdAt ≤ timeout)

/-- `Plan` of `OneByOneUntilSaturatedPattern`. -/
def oneByOnePlan (now : ℤ) (demand : WorkerDemand) (starts : List WorkerStartReservation) (cfg : WorkerExecutionConfig) :
    WorkerStartPlan :=
  let inflight := unexpiredInflightStarts starts now cfg.inflightStartTimeout
  let work := demand.runningAttempts + demand.pendingClaimable
  let desired := if 0 < cfg.maxActiveWorkers ∧ cfg.maxActiveWorkers < work then cfg.maxActiveWorkers else work
  let observed := demand.liveWorkerSessions + inflight.length
  if demand.pendingClaimable ≤ 0 then ⟨0, "no_claimable_work"⟩
  else if 0 < cfg.maxActiveWorkers ∧ cfg.maxActiveWorkers ≤ observed then ⟨0, "max_active_workers_reached"⟩
  else if desired - observed ≤ 0 then ⟨0, "active_capacity_satisfies_claimable_work"⟩
  else if 0 < inflight.length then ⟨0, "waiting_for_inflight_start_claim"⟩
  else ⟨1, "active_capacity_below_claimable_work"⟩

/-- `patternForConfig` and `Plan`. -/
def planFor (now : ℤ) (demand : WorkerDemand) (starts : List WorkerStartReservation) (cfg : WorkerExecutionConfig) :
    Except String WorkerStartPlan :=
  match cfg.pattern with
  | .unset | .oneByOneUntilSaturated => .ok (oneByOnePlan now demand starts cfg)
  | .null => .ok ⟨0, "worker_scheduling_disabled"⟩
  | .unsupported name => .error ("unsupported worker execution pattern " ++ name.quote)

/-- `WorkerCapacityManager`. -/
structure WorkerCapacityManager where
  inflightStarts : List WorkerStartReservation
  nextId : ℕ

/-- The id of a reservation. -/
def reservationId (n : ℕ) : String := s!"worker-start-{n}"

namespace WorkerCapacityManager

variable (m : WorkerCapacityManager)

/-- `NewWorkerCapacityManager`. -/
def new : WorkerCapacityManager := ⟨[], 0⟩

/-- `pruneExpiredInflightStarts`. -/
def pruneExpiredInflightStarts (now timeout : ℤ) : WorkerCapacityManager :=
  { m with inflightStarts := unexpiredInflightStarts m.inflightStarts now timeout }

/-- The reservations of `reserveInflightStarts`. -/
def reservations (now : ℤ) (count : ℕ) : List WorkerStartReservation :=
  (List.range' (m.nextId + 1) count).map fun n => ⟨reservationId n, now⟩

/-- `reserveInflightStarts`. -/
def reserveInflightStarts (now : ℤ) (count : ℕ) : WorkerCapacityManager :=
  ⟨m.inflightStarts ++ m.reservations now count, m.nextId + count⟩

/-- `removeInflightReservations`. -/
def removeInflightReservations (removed : List WorkerStartReservation) : WorkerCapacityManager :=
  { m with inflightStarts := m.inflightStarts.filter fun reservation => !(removed.map (·.id)).contains reservation.id }

/-- `ConfirmOldestInflightStartRegistered`. -/
def confirmOldestInflightStartRegistered : WorkerCapacityManager × Bool :=
  match m.inflightStarts with
  | [] => (m, false)
  | _ :: rest => ({ m with inflightStarts := rest }, true)

end WorkerCapacityManager

/-- What an evaluation does: the manager after it, the plan, the error, and the reservations that it made. -/
structure Evaluation where
  manager : WorkerCapacityManager
  plan : WorkerStartPlan
  error : Option String
  reserved : List WorkerStartReservation

/-- `EvaluateDemand`. The launch may fail. -/
def evaluateDemand (m : WorkerCapacityManager) (now : ℤ) (cfg : WorkerExecutionConfig) (demand : WorkerDemand)
    (launch : ℕ → Option String) : Evaluation :=
  let pruned := m.pruneExpiredInflightStarts now cfg.inflightStartTimeout
  match planFor now demand pruned.inflightStarts cfg with
  | .error text => ⟨m, ⟨0, ""⟩, some text, []⟩
  | .ok plan =>
    if plan.startCount = 0 then ⟨pruned, plan, none, []⟩
    else
      let reserved := pruned.reservations now plan.startCount
      let manager := pruned.reserveInflightStarts now plan.startCount
      match launch plan.startCount with
      | some error => ⟨manager.removeInflightReservations reserved, plan, some error, reserved⟩
      | none => ⟨manager, plan, none, reserved⟩

/-! ### Runs -/

/-- The operations on the manager. -/
inductive CapacityOp where
  | evaluate (now : ℤ) (demand : WorkerDemand) (launch : ℕ → Option String)
  | confirm
  | prune (now : ℤ)

/-- The manager, and the ids of the reservations that were made so far. -/
structure CapacityState where
  manager : WorkerCapacityManager
  issued : List String

/-- One operation under a fixed configuration. -/
def CapacityState.apply (cfg : WorkerExecutionConfig) (s : CapacityState) : CapacityOp → CapacityState
  | .evaluate now demand launch =>
    let evaluation := evaluateDemand s.manager now cfg demand launch
    ⟨evaluation.manager, s.issued ++ evaluation.reserved.map (·.id)⟩
  | .confirm => { s with manager := s.manager.confirmOldestInflightStartRegistered.1 }
  | .prune now => { s with manager := s.manager.pruneExpiredInflightStarts now cfg.inflightStartTimeout }

/-- The state after operations, from the start. -/
def afterCapacityOps (cfg : WorkerExecutionConfig) : List CapacityOp → CapacityState :=
  run (CapacityState.apply cfg) ⟨.new, []⟩

theorem unexpiredInflightStarts_sublist (starts : List WorkerStartReservation) (now timeout : ℤ) :
    (unexpiredInflightStarts starts now timeout).Sublist starts := by
  unfold unexpiredInflightStarts
  split_ifs
  · exact .refl _
  · exact List.filter_sublist

/-- What has been pruned stays when it is looked at again at the same time. -/
theorem unexpiredInflightStarts_idem (starts : List WorkerStartReservation) (now timeout : ℤ) :
    unexpiredInflightStarts (unexpiredInflightStarts starts now timeout) now timeout =
      unexpiredInflightStarts starts now timeout := by
  unfold unexpiredInflightStarts
  split_ifs <;> simp [List.filter_filter]

theorem reservationId_injective : Function.Injective reservationId := by
  intro m n h
  have hdigits : Nat.toDigits 10 m = Nat.toDigits 10 n := by
    simpa [reservationId, ← String.toList_inj, Nat.toString_eq_repr] using h
  have hvalue := congrArg (Nat.ofDigitChars 10 · 0) hdigits
  simpa only [Nat.ofDigitChars_ten_toDigits] using hvalue

/-- A configuration that starts workers one by one, up to a positive limit. -/
structure WorkerExecutionConfig.OneByOne (cfg : WorkerExecutionConfig) : Prop where
  pattern : cfg.pattern = .unset ∨ cfg.pattern = .oneByOneUntilSaturated
  limit : 0 < cfg.maxActiveWorkers

/-- What a plan to start says about the demand and the reservations. -/
structure Starts (now : ℤ) (demand : WorkerDemand) (starts : List WorkerStartReservation) (cfg : WorkerExecutionConfig) : Prop where
  none_inflight : unexpiredInflightStarts starts now cfg.inflightStartTimeout = []
  below_limit : demand.liveWorkerSessions < cfg.maxActiveWorkers
  below_work : demand.liveWorkerSessions < demand.runningAttempts + demand.pendingClaimable

theorem oneByOnePlan_starts {now : ℤ} {demand : WorkerDemand} {starts : List WorkerStartReservation}
    {cfg : WorkerExecutionConfig} (hlimit : 0 < cfg.maxActiveWorkers)
    (h : (oneByOnePlan now demand starts cfg).startCount ≠ 0) :
    (oneByOnePlan now demand starts cfg).startCount = 1 ∧ Starts now demand starts cfg := by
  simp only [oneByOnePlan] at h ⊢
  split_ifs at h ⊢
  all_goals first | exact absurd rfl h | skip
  all_goals
    have hnone := List.eq_nil_of_length_eq_zero (Nat.eq_zero_of_not_pos ‹¬0 < (unexpiredInflightStarts _ _ _).length›)
    have hlength := congrArg List.length hnone
    rw [List.length_nil] at hlength
    exact ⟨rfl, hnone, by omega, by omega⟩

/-- **What an evaluation does**: it prunes, and then starts nothing, or makes one reservation where there is none and the
demand is above the workers; if the launch fails, the reservation is gone. -/
theorem evaluateDemand_cases {cfg : WorkerExecutionConfig} (hcfg : cfg.OneByOne) (m : WorkerCapacityManager) (now : ℤ)
    (demand : WorkerDemand) (launch : ℕ → Option String) :
    (∃ plan : WorkerStartPlan, plan.startCount = 0 ∧ evaluateDemand m now cfg demand launch =
      ⟨m.pruneExpiredInflightStarts now cfg.inflightStartTimeout, plan, none, []⟩) ∨
    ∃ plan : WorkerStartPlan, plan.startCount = 1 ∧ Starts now demand m.inflightStarts cfg ∧
      evaluateDemand m now cfg demand launch =
        ⟨⟨if (launch 1).isSome then [] else [⟨reservationId (m.nextId + 1), now⟩], m.nextId + 1⟩, plan, launch 1,
          [⟨reservationId (m.nextId + 1), now⟩]⟩ := by
  have hplan : ∀ starts, planFor now demand starts cfg = .ok (oneByOnePlan now demand starts cfg) := fun starts => by
    rcases hcfg.pattern with hpattern | hpattern <;> simp [planFor, hpattern]
  simp only [evaluateDemand, hplan]
  generalize hpruned : m.pruneExpiredInflightStarts now cfg.inflightStartTimeout = pruned
  have hlist : unexpiredInflightStarts m.inflightStarts now cfg.inflightStartTimeout = pruned.inflightStarts := by
    rw [← hpruned]
    rfl
  by_cases hzero : (oneByOnePlan now demand pruned.inflightStarts cfg).startCount = 0
  · exact .inl ⟨_, hzero, by rw [if_pos hzero]⟩
  · obtain ⟨hone, hstarts⟩ := oneByOnePlan_starts hcfg.limit hzero
    have hnone := hstarts.none_inflight
    rw [← hlist, unexpiredInflightStarts_idem] at hnone
    have hid : pruned.nextId = m.nextId := by rw [← hpruned]; rfl
    refine .inr ⟨_, hone, ⟨hnone, hstarts.below_limit, hstarts.below_work⟩, ?_⟩
    rw [if_neg hzero, hone]
    cases launch 1 <;> simp [WorkerCapacityManager.reserveInflightStarts, WorkerCapacityManager.reservations,
      WorkerCapacityManager.removeInflightReservations, ← hlist, hnone, hid]

/-- The invariant: at most one reservation, the ids that were given out are the first ones, and the reservations have some
of them. -/
structure CapacityState.Bounded (s : CapacityState) : Prop where
  one : s.manager.inflightStarts.length ≤ 1
  issued : s.issued = (List.range' 1 s.manager.nextId).map reservationId

theorem CapacityState.Bounded.apply {cfg : WorkerExecutionConfig} (hcfg : cfg.OneByOne) {s : CapacityState} (op : CapacityOp)
    (h : s.Bounded) : (s.apply cfg op).Bounded := by
  have hprune : ∀ now, (s.manager.pruneExpiredInflightStarts now cfg.inflightStartTimeout).inflightStarts.length ≤ 1 :=
    fun now => Nat.le_trans (unexpiredInflightStarts_sublist ..).length_le h.one
  cases op with
  | evaluate now demand launch =>
    rcases evaluateDemand_cases hcfg s.manager now demand launch with ⟨plan, _, heval⟩ | ⟨plan, _, _, heval⟩
    · simp only [CapacityState.apply, heval, List.map_nil, List.append_nil]
      exact ⟨hprune now, h.issued⟩
    · simp only [CapacityState.apply, heval]
      refine ⟨?_, ?_⟩
      · split_ifs <;> simp
      · simp [h.issued, List.range'_1_concat, Nat.add_comm]
  | confirm =>
    refine ⟨?_, ?_⟩ <;> simp only [CapacityState.apply, WorkerCapacityManager.confirmOldestInflightStartRegistered]
    · have hone := h.one
      split <;> simp_all
    · split <;> exact h.issued
  | prune now => exact ⟨hprune now, h.issued⟩

/-- **Worker starts are bounded.** In every run under a one by one configuration with a positive limit there is at most one
reservation that has not expired, and no id is given out twice. An evaluation launches only if the live sessions with the
reservations that have not expired are below the limit and below the work that runs or can be claimed, and then one
worker; if the launch fails, the reservations are the ones that had not expired before it. -/
theorem worker_starts_bounded (cfg : WorkerExecutionConfig) (hcfg : cfg.OneByOne) (ops : List CapacityOp) :
    let s := afterCapacityOps cfg ops
    let unexpired := fun now => unexpiredInflightStarts s.manager.inflightStarts now cfg.inflightStartTimeout
    (∀ now, (unexpired now).length ≤ 1) ∧ s.issued.Nodup ∧
      ∀ now demand launch,
        let evaluation := evaluateDemand s.manager now cfg demand launch
        (evaluation.plan.startCount ≠ 0 → evaluation.plan.startCount = 1 ∧
          demand.liveWorkerSessions + (unexpired now).length < cfg.maxActiveWorkers ∧
          demand.liveWorkerSessions + (unexpired now).length < demand.runningAttempts + demand.pendingClaimable) ∧
        (evaluation.error.isSome → evaluation.manager.inflightStarts = unexpired now) := by
  have hinv : (afterCapacityOps cfg ops).Bounded :=
    run_invariant (C := fun _ _ => True) (fun s op _ hs => hs.apply hcfg op) (fun _ _ => trivial)
      ⟨by simp [WorkerCapacityManager.new], by simp [WorkerCapacityManager.new]⟩
  refine ⟨fun now => Nat.le_trans (unexpiredInflightStarts_sublist ..).length_le hinv.one, ?_, ?_⟩
  · rw [hinv.issued]
    exact (List.nodup_range' ..).map reservationId_injective
  · intro now demand launch
    rcases evaluateDemand_cases hcfg (afterCapacityOps cfg ops).manager now demand launch with
      ⟨plan, hzero, heval⟩ | ⟨plan, hone, hstarts, heval⟩
    · simp only [heval]
      exact ⟨fun hne => absurd hzero hne, fun herror => absurd herror (by simp)⟩
    · simp only [heval, hstarts.none_inflight, List.length_nil]
      exact ⟨fun _ => ⟨hone, by simpa using hstarts.below_limit, by simpa using hstarts.below_work⟩, fun herror => by
        rw [if_pos herror]⟩

namespace Sample

/-- One worker at a time, with reservations for ten nanoseconds. -/
def twoAtMost : WorkerExecutionConfig := ⟨.unset, 2, 10⟩

/-- A launch that fails, one that works, an evaluation while it is pending, and one after it has expired. -/
def starts : List CapacityOp :=
  [.evaluate 0 ⟨3, 3, 0, 0⟩ fun _ => some "no node", .evaluate 1 ⟨3, 3, 0, 0⟩ fun _ => none,
    .evaluate 5 ⟨3, 3, 0, 0⟩ fun _ => none, .evaluate 12 ⟨3, 3, 0, 0⟩ fun _ => none]

theorem starts_bounded : (afterCapacityOps twoAtMost starts).issued = ["worker-start-1", "worker-start-2", "worker-start-3"] ∧
    (afterCapacityOps twoAtMost starts).issued.Nodup :=
  ⟨by decide +kernel, (worker_starts_bounded twoAtMost ⟨.inl rfl, by decide⟩ starts).2.1⟩

end Sample

end GoEtl.Controller
