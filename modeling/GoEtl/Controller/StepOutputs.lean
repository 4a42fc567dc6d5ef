import GoEtl.Controller.StageRecords
import GoEtl.Variables.Resolver

/-!
# Step outputs as variables of later stages

`cmd/controller/workflow_outputs.go`: the output documents of the steps that have completed become the variable
`workflow.step` when a later stage is compiled, a list with one expression for each document. A document that is accepted
is a value of strings, integers and booleans in objects and lists (`IsOutput`). Its strings are escaped, so that the
resolver finds no placeholders in them and gives back the value that was accepted, whatever else is in scope.
-/

namespace GoEtl.Controller

open Library Persistence Text Variables

/-! ### Accepting a document -/

mutual

/-- `resolvedOutputValue`. -/
def resolvedOutputValue (path : Chars) : JsonValue → Except String ResolvedValue
  | .null => .error ("output " ++ String.ofList path ++ " is null, null outputs are not supported")
  | .object fields => do
    let resolved ← resolvedOutputFields path fields
    pure (resolvedObject resolved)
  | .array items => do
    let resolved ← resolvedOutputItems path 0 items
    pure (resolvedList resolved)
  | .string text => .ok (.scalar .string (.text text) .plain)
  | .bool value => .ok (.scalar .bool (.bool value) .plain)
  | .number text =>
    if hasAny (chars ".eE") text then
      .error ("output " ++ String.ofList path ++ " has non-integer number " ++ String.ofList text)
    else
      match atoi text with
      | some n => .ok (.scalar .int (.int n) .plain)
      | none =>
        .error ("output " ++ String.ofList path ++ " has integer number outside supported int range " ++ String.ofList text)

/-- The members of an object. -/
def resolvedOutputFields (path : Chars) : List (Chars × JsonValue) → Except String (List (Chars × ResolvedValue))
  | [] => .ok []
  | (name, value) :: fields => do
    let resolved ← resolvedOutputValue (appendJsonPointer path name) value
    let rest ← resolvedOutputFields path fields
    pure ((name, resolved) :: rest)

/-- The items of an array. -/
def resolvedOutputItems (path : Chars) : ℕ → List JsonValue → Except String (List ResolvedValue)
  | _, [] => .ok []
  | index, value :: items => do
    let resolved ← resolvedOutputValue (appendJsonPointer path (itoa index)) value
    let rest ← resolvedOutputItems path (index + 1) items
    pure (resolved :: rest)

end

/-- `resolvedOutputFromJSON`, with the decoder of `encoding/json`. -/
def resolvedOutputFromJson (decode : String → Except String JsonValue) (raw : String) : Except String ResolvedValue := do
  let decoded ← decode raw
  resolvedOutputValue ['/'] decoded

/-! ### The generated variable -/

mutual

/-- `outputTypedExpressionFromResolved`. -/
def outputTypedExpressionFromResolved : ResolvedValue → Except String TypedExpression
  | .scalar .bool (.bool value) _ => .ok (.bool, .bool value)
  | .scalar .int (.int n) _ => .ok (.int, .int n)
  | .scalar .string (.text content) _ => .ok (.string, .text (escape content))
  | .scalar .path (.text content) _ => .ok (.path, .text (escape content))
  | .scalar .datetime (.text content) _ => .ok (.datetime, .text (escape content))
  | .scalar kind _ _ => .error ("invalid " ++ kind.text ++ " value")
  | .object fields _ => do
    let expressions ← outputTypedFields fields
    pure (.object, .object expressions)
  | .list items _ => do
    let expressions ← outputTypedItems 0 items
    pure (.list, .list expressions)

/-- The fields of an object. -/
def outputTypedFields : List (Chars × ResolvedValue) → Except String (List (Chars × TypedExpression))
  | [] => .ok []
  | (name, value) :: fields => do
    let expression ← wrapError ("convert object field " ++ String.ofList name) (outputTypedExpressionFromResolved value)
    let rest ← outputTypedFields fields
    pure ((name, expression) :: rest)

/-- The items of a list. -/
def outputTypedItems : ℕ → List ResolvedValue → Except String (List TypedExpression)
  | _, [] => .ok []
  | index, value :: items => do
    let expression ← wrapError ("convert list item " ++ toString index) (outputTypedExpressionFromResolved value)
    let rest ← outputTypedItems (index + 1) items
    pure (expression :: rest)

end

/-- One round of the loop of `workflowStepScope`. -/
def stepOutputExpression (decode : String → Except String JsonValue) (step : DependencyStep) :
    Except String TypedExpression := do
  let name := "workflow step " ++ toString step.stepIndex
  rules [
    (step.state != .completed, name ++ " is " ++ step.state.text ++ ", want completed"),
    (step.outputJson == "" && step.outputJsonPruned, "workflow.step[" ++ toString step.stepIndex ++
      "] output was pruned before downstream work was materialized"),
    (step.outputJson == "", name ++ " is missing output JSON")]
  wrapError name (validateLogicalStepOutputJsonSize step.outputJson)
  let output ← wrapError name (resolvedOutputFromJson decode step.outputJson)
  wrapError name (outputTypedExpressionFromResolved output)

/-- The steps before an index, in order. -/
def stepsBefore (plan : DependencyPlan) (beforeStepIndex : ℤ) : List DependencyStep :=
  (sortedSteps plan).filter fun step => decide (step.stepIndex < beforeStepIndex)

/-- The name of the generated variable. -/
def stepVariable : Name := ⟨.workflow, chars "step"⟩

/-- `workflowStepScope`, the scope. -/
def workflowStepVariables (times : Times) (decode : String → Except String JsonValue) (plan : DependencyPlan)
    (beforeStepIndex : ℤ) : Except String Scope := do
  rules [(decide (beforeStepIndex < 0), "before step index must be non-negative")]
  let outputs ← (stepsBefore plan beforeStepIndex).mapM (stepOutputExpression decode)
  newScope times [⟨stepVariable, .list, .expression (.list outputs), false⟩]

/-- The resolver's configuration in `compileActivationStage`. -/
def activationConfig (times : Times) : ResolverConfig := ⟨0, none, defaultFunctionRegistry, times⟩

/-! ### What is accepted -/

mutual

/-- The values of accepted documents. -/
def IsOutput : ResolvedValue → Prop
  | .scalar .string (.text _) mark => mark = .plain
  | .scalar .bool (.bool _) mark => mark = .plain
  | .scalar .int (.int _) mark => mark = .plain
  | .scalar _ _ _ => False
  | .object fields mark => mark = .plain ∧ AreOutputFields fields
  | .list items mark => mark = .plain ∧ AreOutputs items

/-- The fields of an object. -/
def AreOutputFields : List (Chars × ResolvedValue) → Prop
  | [] => True
  | (_, value) :: fields => IsOutput value ∧ AreOutputFields fields

/-- The items of a list. -/
def AreOutputs : List ResolvedValue → Prop
  | [] => True
  | value :: items => IsOutput value ∧ AreOutputs items

end

theorem IsOutput.mark_eq : ∀ {value : ResolvedValue}, IsOutput value → value.mark = .plain
  | .scalar kind content mark, h => by
    cases kind <;> cases content <;> first | exact h | exact h.elim
  | .object _ _, h => h.1
  | .list _ _, h => h.1

/-- A container of values without marks has none. -/
theorem aggregate_plain {marks : List Mark} (h : ∀ mark ∈ marks, mark = .plain) : aggregate marks = .plain := by
  induction marks with
  | nil => rfl
  | cons mark marks ih =>
    rw [h mark (List.mem_cons_self ..)]
    exact ih fun other hother => h other (List.mem_cons_of_mem _ hother)

theorem AreOutputFields.forall : ∀ {fields : List (Chars × ResolvedValue)}, AreOutputFields fields →
    ∀ field ∈ fields, IsOutput field.2
  | (_, _) :: _, ⟨hvalue, hrest⟩, _, hmem => by
    rcases List.mem_cons.1 hmem with rfl | hmem
    · exact hvalue
    · exact AreOutputFields.forall hrest _ hmem

theorem AreOutputs.forall : ∀ {items : List ResolvedValue}, AreOutputs items → ∀ value ∈ items, IsOutput value
  | _ :: _, ⟨hvalue, hrest⟩, _, hmem => by
    rcases List.mem_cons.1 hmem with rfl | hmem
    · exact hvalue
    · exact AreOutputs.forall hrest _ hmem

theorem AreOutputFields.resolvedObject_eq {fields : List (Chars × ResolvedValue)} (h : AreOutputFields fields) :
    resolvedObject fields = .object fields .plain := by
  refine congrArg (ResolvedValue.object fields) (aggregate_plain fun mark hmark => ?_)
  obtain ⟨field, hfield, rfl⟩ := List.mem_map.1 hmark
  exact (h.forall field hfield).mark_eq

theorem AreOutputs.resolvedList_eq {items : List ResolvedValue} (h : AreOutputs items) :
    resolvedList items = .list items .plain := by
  refine congrArg (ResolvedValue.list items) (aggregate_plain fun mark hmark => ?_)
  obtain ⟨value, hvalue, rfl⟩ := List.mem_map.1 hmark
  exact (h.forall value hvalue).mark_eq

mutual

/-- **A document that is accepted is an output.** -/
theorem resolvedOutputValue_isOutput : ∀ {path : Chars} {document : JsonValue} {value : ResolvedValue},
    resolvedOutputValue path document = .ok value → IsOutput value
  | _, .null, _, h => by cases h
  | path, .object fields, value, h => by
    obtain ⟨resolved, hresolved, hvalue⟩ := except_bind_ok.1 h
    have houtputs := resolvedOutputFields_areOutputs hresolved
    cases hvalue
    rw [houtputs.resolvedObject_eq]
    exact ⟨rfl, houtputs⟩
  | path, .array items, value, h => by
    obtain ⟨resolved, hresolved, hvalue⟩ := except_bind_ok.1 h
    have houtputs := resolvedOutputItems_areOutputs hresolved
    cases hvalue
    rw [houtputs.resolvedList_eq]
    exact ⟨rfl, houtputs⟩
  | _, .string _, _, h => by
    cases h
    exact rfl
  | _, .bool _, _, h => by
    cases h
    exact rfl
  | _, .number text, _, h => by
    unfold resolvedOutputValue at h
    split at h
    · cases h
    · split at h
      · cases h
        exact rfl
      · cases h

theorem resolvedOutputFields_areOutputs : ∀ {path : Chars} {fields : List (Chars × JsonValue)}
    {resolved : List (Chars × ResolvedValue)}, resolvedOutputFields path fields = .ok resolved → AreOutputFields resolved
  | _, [], _, h => by
    cases h
    exact trivial
  | _, (_, _) :: _, _, h => by
    obtain ⟨value, hvalue, h⟩ := except_bind_ok.1 h
    obtain ⟨rest, hrest, h⟩ := except_bind_ok.1 h
    cases h
    exact ⟨resolvedOutputValue_isOutput hvalue, resolvedOutputFields_areOutputs hrest⟩

theorem resolvedOutputItems_areOutputs : ∀ {path : Chars} {index : ℕ} {items : List JsonValue}
    {resolved : List ResolvedValue}, resolvedOutputItems path index items = .ok resolved → AreOutputs resolved
  | _, _, [], _, h => by
    cases h
    exact trivial
  | _, _, _ :: _, _, h => by
    obtain ⟨value, hvalue, h⟩ := except_bind_ok.1 h
    obtain ⟨rest, hrest, h⟩ := except_bind_ok.1 h
    cases h
    exact ⟨resolvedOutputValue_isOutput hvalue, resolvedOutputItems_areOutputs hrest⟩

end

/-! ### Escaping and resolving -/

/-- The expression is accepted as a definition, and resolves to the value whatever references would resolve to. -/
structure Stands (times : Times) (value : ResolvedValue) (expression : Expression) : Prop where
  valid : validateDefinition times value.kind expression = .ok ()
  resolves : ∀ config refer context, resolveExpression config refer context value.kind expression = .ok value

/-- **An escaped text stands for the text.** -/
theorem escape_stands (times : Times) (text : Chars) :
    Stands times (.scalar .string (.text text) .plain) (.text (escape text)) := by
  constructor
  · show validateText times .string (escape text) = .ok ()
    rw [validateText, parseInterpolationTokens_escape]
    rfl
  · exact fun config refer context => resolveText_escape config refer context text

mutual

/-- **An output becomes an expression that stands for it.** By induction on the value; the texts are where it could go
wrong. -/
theorem IsOutput.stands (times : Times) : ∀ {value : ResolvedValue}, IsOutput value →
    ∃ expression, outputTypedExpressionFromResolved value = .ok (value.kind, expression) ∧ Stands times value expression
  | .scalar kind content mark, h => by
    have hmark : mark = .plain := h.mark_eq
    subst hmark
    cases kind <;> cases content <;> try exact h.elim
    · exact ⟨_, rfl, escape_stands times _⟩
    · exact ⟨_, rfl, rfl, fun _ _ _ => rfl⟩
    · exact ⟨_, rfl, rfl, fun _ _ _ => rfl⟩
  | .object fields mark, ⟨hmark, hfields⟩ => by
    obtain ⟨expressions, hexpressions, hvalid, hresolves⟩ := AreOutputFields.stands times hfields
    refine ⟨.object expressions, ?_, hvalid, fun config refer context => ?_⟩
    · rw [outputTypedExpressionFromResolved, hexpressions]
      rfl
    · show (resolveFields config refer context expressions >>= fun resolved => pure (resolvedObject resolved)) = _
      rw [hresolves, hmark]
      exact congrArg Except.ok hfields.resolvedObject_eq
  | .list items mark, ⟨hmark, hitems⟩ => by
    obtain ⟨expressions, hexpressions, hvalid, hresolves⟩ := AreOutputs.stands times hitems 0
    refine ⟨.list expressions, ?_, hvalid, fun config refer context => ?_⟩
    · rw [outputTypedExpressionFromResolved, hexpressions]
      rfl
    · show (resolveItems config refer context 0 expressions >>= fun resolved => pure (resolvedList resolved)) = _
      rw [hresolves, hmark]
      exact congrArg Except.ok hitems.resolvedList_eq

theorem AreOutputFields.stands (times : Times) : ∀ {fields : List (Chars × ResolvedValue)}, AreOutputFields fields →
    ∃ expressions, outputTypedFields fields = .ok expressions ∧ validateFields times expressions = .ok () ∧
      ∀ config refer context, resolveFields config refer context expressions = .ok fields
  | [], _ => ⟨[], rfl, rfl, fun _ _ _ => rfl⟩
  | (name, value) :: fields, ⟨hvalue, hfields⟩ => by
    obtain ⟨expression, hexpression, hstands⟩ := IsOutput.stands times hvalue
    obtain ⟨expressions, hexpressions, hvalid, hresolves⟩ := AreOutputFields.stands times hfields
    refine ⟨(name, value.kind, expression) :: expressions, ?_, ?_, fun config refer context => ?_⟩
    · rw [outputTypedFields, hexpression, hexpressions]
      rfl
    · rw [validateFields, hstands.valid]
      exact hvalid
    · rw [resolveFields, hstands.resolves, hresolves]
      rfl

theorem AreOutputs.stands (times : Times) : ∀ {items : List ResolvedValue}, AreOutputs items → ∀ index,
    ∃ expressions, outputTypedItems index items = .ok expressions ∧ validateItems times expressions = .ok () ∧
      ∀ config refer context, resolveItems config refer context index expressions = .ok items
  | [], _, _ => ⟨[], rfl, rfl, fun _ _ _ => rfl⟩
  | value :: items, ⟨hvalue, hitems⟩, index => by
    obtain ⟨expression, hexpression, hstands⟩ := IsOutput.stands times hvalue
    obtain ⟨expressions, hexpressions, hvalid, hresolves⟩ := AreOutputs.stands times hitems (index + 1)
    refine ⟨(value.kind, expression) :: expressions, ?_, ?_, fun config refer context => ?_⟩
    · rw [outputTypedItems, hexpression, hexpressions]
      rfl
    · rw [validateItems, hstands.valid]
      exact hvalid
    · rw [resolveItems, hstands.resolves, hresolves]
      rfl

end

/-! ### Resolving a step's output -/

section

variable (times : Times) (decode : String → Except String JsonValue)

/-- A step that has completed with an output that is accepted as the value. -/
structure Accepted (step : DependencyStep) (value : ResolvedValue) : Prop where
  completed : step.state = .completed
  size : validateLogicalStepOutputJsonSize step.outputJson = .ok ()
  document : resolvedOutputFromJson decode step.outputJson = .ok value

variable {decode}

theorem Accepted.isOutput {step : DependencyStep} {value : ResolvedValue} (h : Accepted decode step value) :
    IsOutput value := by
  obtain ⟨document, _, hvalue⟩ := except_bind_ok.1 h.document
  exact resolvedOutputValue_isOutput hvalue

/-- An accepted output becomes an expression that stands for it. -/
theorem Accepted.expression {step : DependencyStep} {value : ResolvedValue} (h : Accepted decode step value) :
    ∃ expression, stepOutputExpression decode step = .ok (value.kind, expression) ∧ Stands times value expression := by
  obtain ⟨expression, hexpression, hstands⟩ := h.isOutput.stands times
  have hsome : step.outputJson ≠ "" := by
    have hsize := h.size
    simp [validateLogicalStepOutputJsonSize, validateOutputJsonSize, rules_ok] at hsize
    exact hsize.1
  refine ⟨expression, ?_, hstands⟩
  simp only [stepOutputExpression, except_bind_ok, rules_ok, wrapError_ok]
  refine ⟨(), ?_, (), h.size, value, h.document, hexpression⟩
  simp [h.completed, hsome]

/-- The outputs of the steps, as expressions of one list. -/
theorem accepted_expressions {steps : List DependencyStep} {values : List ResolvedValue}
    (h : List.Forall₂ (Accepted decode) steps values) :
    ∃ expressions, steps.mapM (stepOutputExpression decode) = .ok expressions ∧ validateItems times expressions = .ok () ∧
      ∀ config refer context index, resolveItems config refer context index expressions = .ok values := by
  induction h with
  | nil => exact ⟨[], rfl, rfl, fun _ _ _ _ => rfl⟩
  | @cons step value _ _ hstep _ ih =>
    obtain ⟨expression, hexpression, hstands⟩ := hstep.expression times
    obtain ⟨expressions, hexpressions, hvalid, hresolves⟩ := ih
    refine ⟨(value.kind, expression) :: expressions, ?_, ?_, fun config refer context index => ?_⟩
    · rw [List.mapM_cons, hexpression, hexpressions]
      rfl
    · rw [validateItems, hstands.valid]
      exact hvalid
    · rw [resolveItems, hstands.resolves, hresolves]
      rfl

theorem areOutputs_of_accepted {steps : List DependencyStep} {values : List ResolvedValue}
    (h : List.Forall₂ (Accepted decode) steps values) : AreOutputs values := by
  induction h with
  | nil => exact trivial
  | cons hstep _ ih => exact ⟨hstep.isOutput, ih⟩

/-- The generated scope, and what its variable resolves to. -/
theorem workflowStepVariables_resolve {plan : DependencyPlan} {beforeStepIndex : ℤ} (hbefore : 0 ≤ beforeStepIndex)
    {values : List ResolvedValue} (h : List.Forall₂ (Accepted decode) (stepsBefore plan beforeStepIndex) values) :
    ∃ generated, workflowStepVariables times decode plan beforeStepIndex = .ok generated ∧
      ∀ scopes, resolve (activationConfig times) (scopes ++ [generated]) (.qualified stepVariable) =
        .ok (.list values .plain) := by
  obtain ⟨expressions, hexpressions, hvalid, hresolves⟩ := accepted_expressions times h
  have hplain : resolvedList values = .list values .plain :=
    AreOutputs.resolvedList_eq (areOutputs_of_accepted h)
  refine ⟨[⟨stepVariable, .list, .expression (.list expressions), false⟩], ?_, fun scopes => ?_⟩
  · refine except_bind_ok.2 ⟨(), rules_ok.2 (by simpa using hbefore), except_bind_ok.2 ⟨expressions, hexpressions, ?_⟩⟩
    have hitem : Variable.validate times ⟨stepVariable, .list, .expression (.list expressions), false⟩ = .ok () := hvalid
    rw [newScope, addVariables, hitem]
    rfl
  · have hfound : lookupVariable (activationConfig times)
        (scopes ++ [[⟨stepVariable, .list, .expression (.list expressions), false⟩]]) (.qualified stepVariable) =
          some ⟨stepVariable, .list, .expression (.list expressions), false⟩ := by
      simp [lookupVariable, lookupReference, lastVariable, stepVariable]
    simp only [resolve, hfound]
    rw [mapError_ok, resolveVariable_ok]
    refine ⟨rfl, 9, rfl, ?_⟩
    show (resolveExpression _ _ _ .list (.list expressions) >>= fun value => pure (value.merge false _)) = _
    have hlist : ∀ refer context, resolveExpression (activationConfig times) refer context .list (.list expressions) =
        .ok (.list values .plain) := by
      intro refer context
      show (resolveItems _ refer context 0 expressions >>= fun resolved => pure (resolvedList resolved)) = _
      rw [hresolves, ← hplain]
      rfl
    rw [hlist]
    rfl

end

/-- The text that refers to the output of a step. -/
def stepReference (index : ℕ) : Chars := stepVariable.string ++ indexAccessor index

theorem parseReferenceExpression_step (index : ℕ) :
    parseReferenceExpression (stepReference index) = .ok (.qualified stepVariable, indexAccessor index) := by
  have hdot : '.' ∉ chars "step" ++ indexAccessor index := by
    intro hmem
    rcases List.mem_append.1 hmem with hmem | hmem
    · revert hmem
      decide
    · rcases List.mem_cons.1 hmem with hmem | hmem
      · cases hmem
      · rcases List.mem_append.1 hmem with hmem | hmem
        · cases itoa_digits index '.' hmem
        · cases List.mem_singleton.1 hmem
  have hsplit : (stepReference index).splitOn '.' = [chars "workflow", chars "step" ++ indexAccessor index] := by
    show (chars "workflow" ++ '.' :: (chars "step" ++ indexAccessor index)).splitOn '.' = _
    rw [List.splitOn_append_cons_self, List.splitOn_eq_singleton hdot, List.splitOn_eq_singleton (by decide)]
    rfl
  have haccessor : splitReferenceAccessor (stepReference index) = (stepVariable.string, indexAccessor index) := by
    rw [splitReferenceAccessor, hsplit]
    rfl
  rw [parseReferenceExpression, haccessor]
  rfl

/-- **Step outputs cross stages unchanged.** The steps before an index have completed with outputs that are accepted as
the values. Then the scope of the generated variable is built, and behind any other scopes the text that refers to an
output resolves to exactly the value that was accepted, whatever the texts in it are. -/
theorem step_outputs_unchanged (times : Times) {decode : String → Except String JsonValue} {plan : DependencyPlan}
    {beforeStepIndex : ℤ} (hbefore : 0 ≤ beforeStepIndex) {values : List ResolvedValue}
    (h : List.Forall₂ (Accepted decode) (stepsBefore plan beforeStepIndex) values) :
    ∃ generated, workflowStepVariables times decode plan beforeStepIndex = .ok generated ∧
      ∀ scopes (index : ℕ) value, IsInt index → values[index]? = some value →
        ∃ reference accessor, parseReferenceExpression (stepReference index) = .ok (reference, accessor) ∧
          resolveWithAccessor (activationConfig times) (scopes ++ [generated]) reference accessor = .ok value := by
  obtain ⟨generated, hgenerated, hresolves⟩ := workflowStepVariables_resolve times hbefore h
  refine ⟨generated, hgenerated, fun scopes index value hindex hvalue => ?_⟩
  refine ⟨_, _, parseReferenceExpression_step index, ?_⟩
  exact except_bind_ok.2 ⟨_, hresolves scopes, applyOptionalAccessor_index hindex hvalue⟩

namespace Sample

/-- A decoder that knows two documents, of which the first has a text that looks like a reference. -/
def decodeOutput (raw : String) : Except String JsonValue :=
  if raw = "quoted" then .ok (.object [(chars "name", .string (chars "$\x7bproject.secret\x7d and \\$\x7bx"))])
  else if raw = "plain" then .ok (.object [(chars "count", .number (chars "-3"))])
  else .error "invalid"

/-- A plan of two stages whose first two steps have completed. -/
def outputsPlan : DependencyPlan :=
  ⟨"run", "workflow", .running, "",
    [⟨0, .completed, "", "", [⟨0, 0, "first", .completed, "", "quoted", "", 6, false, []⟩]⟩,
      ⟨1, .completed, "", "", [⟨1, 1, "second", .completed, "", "plain", "", 5, false, []⟩]⟩,
      ⟨2, .blocked, "", "", [⟨2, 2, "third", .blocked, "", "", "", 0, false, []⟩]⟩]⟩

/-- The values of the two outputs. -/
def outputValues : List ResolvedValue :=
  [.object [(chars "name", .scalar .string (.text (chars "$\x7bproject.secret\x7d and \\$\x7bx")) .plain)] .plain,
    .object [(chars "count", .scalar .int (.int (-3)) .plain)] .plain]

/-- No text is a time. -/
def noTimes : Times := ⟨fun _ => false, id, id, id⟩

theorem outputs_accepted : List.Forall₂ (Accepted decodeOutput) (stepsBefore outputsPlan 2) outputValues :=
  .cons ⟨rfl, rfl, rfl⟩ (.cons ⟨rfl, rfl, rfl⟩ .nil)

theorem quoted_output_unchanged :
    ∃ generated, workflowStepVariables noTimes decodeOutput outputsPlan 2 = .ok generated ∧
      ∀ scopes (index : ℕ) value, IsInt index → outputValues[index]? = some value →
        ∃ reference accessor, parseReferenceExpression (stepReference index) = .ok (reference, accessor) ∧
          resolveWithAccessor (activationConfig noTimes) (scopes ++ [generated]) reference accessor = .ok value :=
  step_outputs_unchanged noTimes (by decide) outputs_accepted

end Sample

end GoEtl.Controller
