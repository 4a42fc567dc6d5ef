import GoEtl.Library.Threads
import GoEtl.Persistence.Operations
import GoEtl.Controller.Handlers

/-!
# The controller at work

The system: handlers of submissions and of completion and failure reports, each a thread that takes its
store calls one at a time in any interleaving, and the calls of the store that workers and the caretaker
make in between: registrations, heartbeats, claims, and the recovery of the work of sessions that
stopped or expired. It starts with the empty database.
-/

namespace GoEtl.Controller

open Library Persistence Workflow

/-- A request to the controller. -/
inductive Request where
  /-- A workflow is submitted. -/
  | submit (submission : Submission)
  /-- A worker reports a completion. -/
  | complete (received : Received) (completion : WorkCompletion)
  /-- A worker reports a failure. -/
  | fail (received : Received) (failure : WorkFailure)

/-- The handler of a request. -/
def serve (rt : Runtime) : Request → Ctl Answer
  | .submit submission => submitWorkflowHandler rt submission
  | .complete received completion => completePersistedWorkHandler rt received completion
  | .fail received failure => failPersistedWorkHandler rt received failure

/-- What goes on beside the handlers, each in one call of the store. -/
inductive Activity where
  /-- A session claims work. -/
  | claim (request : ClaimWorkRequest)
  /-- A session registers. -/
  | register (request : RegisterWorkerSessionRequest)
  /-- A session's heartbeat. -/
  | heartbeat (request : HeartbeatWorkerSessionRequest)
  /-- An idle session ends. -/
  | endSession (request : EndWorkerSessionRequest)
  /-- A session stops, and its work is recovered. -/
  | stop (request : StopWorkerSessionAndRecoverWorkRequest)
  /-- Sessions expire, and their work is recovered. -/
  | recover (request : RecoverExpiredWorkerSessionsRequest)

/-- The operation of an activity. -/
def Activity.op : Activity → Op
  | claim request => .claimNextWork request
  | register request => .registerWorkerSession request
  | heartbeat request => .heartbeatWorkerSession request
  | endSession request => .endWorkerSession request
  | stop request => .stopWorkerSessionAndRecoverWork request
  | recover request => .recoverExpiredWorkerSessions request

/-- The activity takes running work away from a session. -/
def Activity.recovers : Activity → Bool
  | stop _ => true
  | recover _ => true
  | _ => false

/-- An activity, on a connection that enforces foreign keys or on one that does not. -/
structure Beside where
  fk : Bool
  activity : Activity

/-- The state after an activity. -/
def Beside.act (w : World) (b : Beside) : World := { w with db := Call.step w.db ⟨b.fk, b.activity.op⟩ }

/-- A move of the system. -/
abbrev SystemMove := Pool.Move Input Beside Request

/-- The system's state: the world and the handlers. -/
abbrev System := Pool World Input String Answer

/-- One move of the system. -/
def System.step (rt : Runtime) : System → SystemMove → System := Pool.apply Beside.act (serve rt)

/-- The system before its first move. -/
def System.initial : System := ⟨⟨Store.empty, []⟩, []⟩

/-- The system after moves. -/
def System.after (rt : Runtime) (moves : List SystemMove) : System :=
  run (System.step rt) System.initial moves

/-- The moves with the states before and after them. -/
def System.steps (rt : Runtime) (moves : List SystemMove) : List (System × SystemMove × System) :=
  trace (System.step rt) System.initial moves

/-! ### A small deployment -/

namespace Sample

open Persistence.Sample

/-- What a table has under a text. -/
def decode {α : Type} (table : List (String × α)) (text : String) : Except String α :=
  match table.find? (·.1 == text) with
  | some entry => .ok entry.2
  | none => .error "unknown text"

/-- The text of a value in a table. -/
def encode {α : Type} [DecidableEq α] (table : List (String × α)) (x : α) : Except String String :=
  match table.find? (·.2 == x) with
  | some entry => .ok entry.1
  | none => .error "unknown value"

/-- A runtime for one workflow, whose steps are compiled to the work items of a table. -/
def runtime (workflow : WorkflowDefinition) (items : List (String × WorkItem)) : Runtime where
  errorText e := match e with
    | .message text => text
    | .sql context _ => context
    | _ => "refused"
  decodeWorkItem := decode items
  encodeWorkItem := encode items
  canonicalHash _ := .ok "sha"
  envelope _ _ := .ok ""
  decodeDependencyState _ := .ok none
  encodeDependencyState _ _ := .error "no dependency state"
  canonicalOutput _ := .ok (object, "sha")
  canonicalJson _ text := .ok (text, "sha")
  validateArtifactManifest _ := .ok ()
  validateSha256Hex _ := .ok ()
  aggregateStepOutput _ := .ok (object, "sha")
  admittedWorkflow _ := .ok workflow
  codeVersion _ _ := .ok "version"
  compileStepItems _ _ step :=
    .ok ((items.filter (·.2.stepDefinitionId == step.stepId)).map fun entry => ⟨entry.2, []⟩)
  validateMaterializeItems _ := .ok ()
  prepareForAdmission _ compiled := .ok compiled
  toSecond text := some text

/-- A work item of a step. -/
def workItem (stepId id : String) (type : WorkItemType) (dependsOn : List String) : WorkItem :=
  ⟨id, type, stepId, dependsOn, ""⟩

/-- What calls take from outside. -/
def input : Input where
  fk := true
  now := ⟨2025, 3, 2, 13, 14, 15, 16, by decide, by decide, by decide, by decide, by decide, by decide, by decide⟩

/-- The submission of a run. -/
def submit : SystemMove := .spawn (.submit {
  project := ⟨"project", "", "repository", none, "path", "", "sha", second 0⟩
  workflow := ⟨"workflow", "project", "", "repository", none, "path", "", "sha", second 0⟩
  run := ⟨"run", "project", "workflow", object, second 0⟩
  sourcePath := "workflow.json"
  submittedAt := second 0 })

/-- A worker reports that an attempt completed. -/
def report (attemptId workerId sessionId completedAt : String) : SystemMove :=
  .spawn (.complete ⟨input.now, ""⟩
    ⟨attemptId, workerId, sessionId, false, "", object, object, object, "", "", completedAt⟩)

/-- A handler takes steps. -/
def turn (n steps : ℕ) : List SystemMove := List.replicate steps (.advance n input)

/-- A session registers. -/
def arrives (workerId sessionId : String) : SystemMove := .env ⟨true, .register ⟨workerId, sessionId, second 1, ""⟩⟩

/-- A session claims work. -/
def claims (attemptId workerId sessionId : String) : SystemMove :=
  .env ⟨true, .claim ⟨attemptId, workerId, sessionId, .worker, second 2, ""⟩⟩

/-- A workflow of two stages. -/
def twoStages : WorkflowDefinition := ⟨"workflow", [⟨"first", ""⟩, ⟨"second", ""⟩], ""⟩

/-- Two work items in the first stage and one in the second. -/
def threeItems : List (String × WorkItem) := [
  ("1", workItem "first" "a" (.other "query") []), ("2", workItem "first" "b" (.other "query") []),
  ("3", workItem "second" "c" (.other "query") [])]

/-- The run is submitted, and two sessions claim the work items of its first stage and report that they completed. -/
def bothReport : List SystemMove :=
  [submit] ++ turn 0 38 ++ [arrives "worker1" "session1", claims "attempt1" "worker1" "session1",
    arrives "worker2" "session2", claims "attempt2" "worker2" "session2",
    report "attempt1" "worker1" "session1" (second 3), report "attempt2" "worker2" "session2" (second 3)]

end Sample

end GoEtl.Controller
