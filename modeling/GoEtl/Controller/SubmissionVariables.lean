import GoEtl.Controller.StepOutputs
import GoEtl.Variables.Loading

/-!
# The variables of a submission in later stages

The variables of a run are those of the project file and those of the submission. The first stage is compiled with them
as they are. They are written into the run's record (`workflowRunRecordFromAdmittedManifest`), from which they are read
when a later stage is compiled (`compileActivationStage`), and which is read and written again when the run is marked as
failed (`setWorkflowDependencyState`).

The two lists of variables mean the same, unless one of the variables has a function call: its expression is written in a
form that is not read back, and then no later stage can be compiled.
-/

namespace GoEtl.Controller

open Library Text Variables

/-- `projectVariablesFromJSON`, of the decoded document. -/
def projectVariablesFromJson (times : Times) : JsonValue → Except String (List Variable)
  | .object members =>
    if (members.lookup (chars "api_version")).isSome then
      match members.lookup (chars "variables") with
      | none => loadVariables times [] .projectConfig
      | some (.object variableMembers) => loadVariables times variableMembers .projectConfig
      | some _ => .error "project source variables must be an object"
    else loadVariables times members .projectConfig
  | _ => .error "project source must be a JSON object"

/-- The variables of a submission: the project's, and those that it has itself. -/
def submissionVariables (times : Times) (project : JsonValue) (documents : List JsonValue) :
    Except String (List Variable) := do
  let projectVariables ← projectVariablesFromJson times project
  let own ← documents.mapM (decodeVariable times)
  pure (projectVariables ++ own)

/-- One round of `safeWorkflowRunSubmissionVariables`. -/
def safeSubmissionVariable (times : Times) (item : Variable) : Except String Variable :=
  if item.sensitive && item.definition.ref.isNone then
    .error ("submission variable " ++ String.ofList item.name.string ++ " is sensitive plaintext; use protected_ref")
  else do
    item.validate times
    pure item

/-- `safeWorkflowRunSubmissionVariables`. -/
def safeWorkflowRunSubmissionVariables (times : Times) (items : List Variable) : Except String (List Variable) :=
  items.mapM (safeSubmissionVariable times)

/-- The variables of a new run's record. -/
def recordedVariables (times : Times) (items : List Variable) : Except String (List JsonValue) := do
  let safe ← safeWorkflowRunSubmissionVariables times items
  safe.mapM (·.encode times)

/-- The variables that a later stage reads from the record. -/
def readVariables (times : Times) (recorded : List JsonValue) : Except String (List Variable) :=
  recorded.mapM (decodeVariable times)

/-- The variables of the record after the run was marked as failed a number of times. -/
def savedVariables (times : Times) (recorded : List JsonValue) : ℕ → Except String (List JsonValue)
  | 0 => .ok recorded
  | count + 1 => do
    let before ← savedVariables times recorded count
    let items ← readVariables times before
    items.mapM (·.encode times)

/-! ### What is accepted -/

variable {times : Times} {items : List Variable}

theorem projectVariablesFromJson_isWritten {project : JsonValue}
    (h : projectVariablesFromJson times project = .ok items) : ∀ item ∈ items, item.IsWritten true := by
  unfold projectVariablesFromJson at h
  split at h
  · split at h
    · split at h
      · exact loadVariables_isWritten h
      · exact loadVariables_isWritten h
      · cases h
    · exact loadVariables_isWritten h
  · cases h

theorem submissionVariables_isWritten {project : JsonValue} {documents : List JsonValue}
    (h : submissionVariables times project documents = .ok items) :
    ∀ item ∈ items, item.IsWritten true := by
  obtain ⟨projectVariables, hproject, h⟩ := except_bind_ok.1 h
  obtain ⟨own, hown, h⟩ := except_bind_ok.1 h
  cases h
  intro item hitem
  rcases List.mem_append.1 hitem with hitem | hitem
  · exact projectVariablesFromJson_isWritten hproject item hitem
  · obtain ⟨_, _, hdecoded⟩ := mapM_mem hown hitem
    exact decodeVariable_isWritten hdecoded

/-- The checks change nothing, and every variable has passed its validation. -/
theorem safeWorkflowRunSubmissionVariables_ok {safe : List Variable}
    (h : safeWorkflowRunSubmissionVariables times items = .ok safe) :
    safe = items ∧ ∀ item ∈ items, item.validate times = .ok () := by
  have hround : ∀ {item item' : Variable}, safeSubmissionVariable times item = .ok item' →
      item' = item ∧ item.validate times = .ok () := by
    intro item item' hitem
    unfold safeSubmissionVariable at hitem
    split at hitem
    · cases hitem
    · obtain ⟨_, hvalid, hitem⟩ := except_bind_ok.1 hitem
      cases hitem
      exact ⟨rfl, hvalid⟩
  have hpairs := mapM_ok.1 h
  induction hpairs with
  | nil => exact ⟨rfl, by simp⟩
  | cons hitem hrest ih =>
    obtain ⟨rfl, hvalid⟩ := hround hitem
    obtain ⟨rfl, hall⟩ := ih (mapM_ok.2 hrest)
    exact ⟨rfl, List.forall_mem_cons.2 ⟨hvalid, hall⟩⟩

/-! ### Reading and writing -/

/-- The variables are written, read back, and written again as they were. -/
theorem variables_roundTrip (hwritten : ∀ item ∈ items, item.IsWritten false)
    (hvalid : ∀ item ∈ items, item.validate times = .ok ()) :
    ∃ recorded, items.mapM (·.encode times) = .ok recorded ∧ readVariables times recorded = .ok (items.map (·.stored)) ∧
      (items.map (·.stored)).mapM (·.encode times) = .ok recorded := by
  induction items with
  | nil => exact ⟨[], rfl, rfl, rfl⟩
  | cons item items ih =>
    rw [List.forall_mem_cons] at hwritten hvalid
    obtain ⟨value, hencoded, hdecoded, hagain⟩ := Variable.roundTrip times hwritten.1 hvalid.1
    obtain ⟨recorded, hencodedRest, hdecodedRest, hagainRest⟩ := ih hwritten.2 hvalid.2
    refine ⟨value :: recorded, mapM_ok.2 (.cons hencoded (mapM_ok.1 hencodedRest)),
      mapM_ok.2 (.cons hdecoded (mapM_ok.1 hdecodedRest)), mapM_ok.2 (.cons hagain (mapM_ok.1 hagainRest))⟩

/-- The record of a failed run has the same variables. -/
theorem savedVariables_eq {recorded : List JsonValue} (hread : readVariables times recorded = .ok items)
    (hagain : items.mapM (·.encode times) = .ok recorded) (count : ℕ) :
    savedVariables times recorded count = .ok recorded := by
  induction count with
  | zero => rfl
  | succ count ih => exact except_bind_ok.2 ⟨recorded, ih, except_bind_ok.2 ⟨items, hread, hagain⟩⟩

/-- A scope has the variables that it is made of, and can be made of what is read back of them. -/
theorem addVariables_stored {scope result : List Variable} (h : addVariables times scope items = .ok result)
    (hwritten : ∀ item ∈ items, item.IsWritten false) :
    result = scope ++ items ∧
      addVariables times (scope.map (·.stored)) (items.map (·.stored)) = .ok (result.map (·.stored)) := by
  induction items generalizing scope with
  | nil =>
    cases h
    exact ⟨(List.append_nil _).symm, rfl⟩
  | cons item items ih =>
    rw [List.forall_mem_cons] at hwritten
    obtain ⟨_, hvalid, h⟩ := except_bind_ok.1 h
    split at h
    · cases h
    · rename_i hfresh
      obtain ⟨hresult, hstored⟩ := ih h hwritten.2
      refine ⟨by rw [hresult, List.append_assoc, List.singleton_append], ?_⟩
      refine except_bind_ok.2 ⟨(), (Variable.validate_stored hwritten.1).trans hvalid, ?_⟩
      rw [List.map_append] at hstored
      rw [List.any_map]
      exact (if_neg hfresh).trans hstored

/-! ### Later stages -/

namespace Sample

/-- The members of a project file with a list of numbers and an object. -/
def plainMembers : List (Chars × JsonValue) :=
  [(chars "years", .array [.number (chars "2019"), .number (chars "2020")]),
    (chars "site", .object [(chars "name", .string (chars "north")), (chars "active", .bool true)])]

/-- A submission with a protected reference. -/
def tokenDocument : JsonValue :=
  .object [(chars "name", .object [(chars "namespace", .string (chars "override")), (chars "key", .string (chars "token"))]),
    (chars "type", .string (chars "string")),
    (chars "protected_ref", .object [(chars "provider", .string (chars "worker_env")), (chars "key", .string (chars "TOKEN"))])]

/-- The variables of the project file and the submission. -/
def plainVariables : List Variable :=
  [⟨⟨.projectConfig, chars "site"⟩, .object, .expression (.object [(chars "name", .string, .text (chars "north")),
      (chars "active", .bool, .bool true)]), false⟩,
    ⟨⟨.projectConfig, chars "years"⟩, .list, .expression (.list [(.int, .int 2019), (.int, .int 2020)]), false⟩,
    ⟨⟨.override, chars "token"⟩, .string,
      .protectedRef (ProtectedRef.normalize ⟨.workerEnvironment, chars "TOKEN", []⟩), true⟩]

/-- What is loaded from members whose order is known. -/
theorem loadVariables_sorted {members sorted : List (Chars × JsonValue)}
    (hsorted : JsonValue.sortFields members = sorted) (hitems : sorted.mapM (loadVariable .projectConfig) = .ok items)
    (hscope : newScope times items = .ok items) : loadVariables times members .projectConfig = .ok items := by
  refine except_bind_ok.2 ⟨(), rfl, except_bind_ok.2 ⟨items, ?_, except_bind_ok.2 ⟨items, hscope, rfl⟩⟩⟩
  rw [hsorted]
  exact hitems

theorem plainVariables_submitted : submissionVariables noTimes (.object plainMembers) [tokenDocument] = .ok plainVariables := by
  have hsorted : JsonValue.sortFields plainMembers = plainMembers.reverse := by
    decide +kernel
  have hproject : projectVariablesFromJson noTimes (.object plainMembers) = .ok (plainVariables.take 2) :=
    loadVariables_sorted hsorted rfl rfl
  exact except_bind_ok.2 ⟨_, hproject, rfl⟩

/-- A function call, as a project file has it. -/
def pairsDirective : JsonValue :=
  .object [(chars "$type", .string (chars "list")), (chars "$call", .string (chars "list.crossproduct")),
    (chars "$args", .array [.object [(chars "$ref", .string (chars "years"))],
      .object [(chars "$ref", .string (chars "sites"))]])]

/-- The members of a project file with two lists and a function call. -/
def callingMembers : List (Chars × JsonValue) :=
  [(chars "years", .array [.number (chars "2019")]), (chars "sites", .array [.string (chars "north")]),
    (chars "pairs", pairsDirective)]

/-- The variables of the project file. -/
def callingVariables : List Variable :=
  [⟨⟨.projectConfig, chars "pairs"⟩, .list, .expression (.call ⟨⟨chars "list", chars "crossproduct"⟩, .list,
      [⟨chars "years", .unqualified (chars "years"), []⟩, ⟨chars "sites", .unqualified (chars "sites"), []⟩]⟩), false⟩,
    ⟨⟨.projectConfig, chars "sites"⟩, .list, .expression (.list [(.string, .text (chars "north"))]), false⟩,
    ⟨⟨.projectConfig, chars "years"⟩, .list, .expression (.list [(.int, .int 2019)]), false⟩]

theorem callingVariables_submitted : submissionVariables noTimes (.object callingMembers) [] = .ok callingVariables := by
  have hsorted : JsonValue.sortFields callingMembers = callingMembers.reverse := by
    decide +kernel
  have hproject : projectVariablesFromJson noTimes (.object callingMembers) = .ok callingVariables :=
    loadVariables_sorted hsorted rfl rfl
  exact except_bind_ok.2 ⟨_, hproject, rfl⟩

end Sample

end GoEtl.Controller
