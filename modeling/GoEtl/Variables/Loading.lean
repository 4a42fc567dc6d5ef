import GoEtl.Variables.Encoding

/-!
# The variables of project files and submissions

`internal/document/variables.go` and `expression_directive.go`: a project file has plain values, whose types are those
of the values, and function calls, written as objects with the members `$type`, `$call` and `$args`. What is made of
project files and what is decoded from submissions are expressions of the same form (`Written`).
-/

namespace GoEtl.Variables

open Library Text

/-! ### Function calls -/

/-- `ParseFunctionName`. -/
def parseFunctionName (text : Chars) : Except String FunctionName :=
  match text.splitOn '.' with
  | [space, name] => do
    let parsed : FunctionName := ⟨space, name⟩
    parsed.validate
    pure parsed
  | _ => .error ("function name must be namespace.name: " ++ String.ofList text)

/-- `expressionDirectiveKeys`. -/
def expressionDirectiveKeys : List Chars := [chars "$args", chars "$call", chars "$expr", chars "$ref", chars "$type"]

/-- `requireExactDirectiveKeys`. -/
def requireExactDirectiveKeys (members : List (Chars × JsonValue)) (keys : List String) : Except String Unit :=
  if members.length ≠ keys.length then
    .error ("expression directive must contain exactly [" ++ " ".intercalate keys ++ "]")
  else
    match keys.find? fun key => (members.lookup (chars key)).isNone with
    | some key => .error ("expression directive missing " ++ key)
    | none => .ok ()

/-- `requiredDirectiveString`. -/
def requiredDirectiveString (members : List (Chars × JsonValue)) (key : String) : Except String Chars :=
  match members.lookup (chars key) with
  | none => .error ("expression directive missing " ++ key)
  | some (.string content) =>
    if content = [] then .error ("expression directive " ++ key ++ " must be a non-empty string") else .ok content
  | some _ => .error ("expression directive " ++ key ++ " must be a non-empty string")

/-- An item of `$args`. -/
def directiveArgumentReference : JsonValue → Except String FunctionArgumentReference
  | .object members => do
    requireExactDirectiveKeys members ["$ref"]
    let ref ← requiredDirectiveString members "$ref"
    newFunctionArgumentReference ref
  | _ => .error "expression directive $args must hold objects"

/-- `directiveArgumentReferences`. -/
def directiveArgumentReferences : Option JsonValue → Except String (List FunctionArgumentReference)
  | some (.array items) =>
    if items.isEmpty then .error "expression directive $args must not be empty"
    else items.mapM directiveArgumentReference
  | _ => .error "expression directive $args must be a list"

/-- `typedExpressionDirectiveFromObject`, of an object that has one of the keys. -/
def typedExpressionDirective (members : List (Chars × JsonValue)) : Except String TypedExpression :=
  if (members.lookup (chars "$expr")).isSome then .error "$expr is not supported; use $call with $type and $args"
  else if (members.lookup (chars "$ref")).isSome then .error "$ref is only valid inside $args"
  else do
    requireExactDirectiveKeys members ["$type", "$call", "$args"]
    let typeName ← requiredDirectiveString members "$type"
    let resultType ← expressionType typeName
    let functionNameText ← requiredDirectiveString members "$call"
    let functionName ← parseFunctionName functionNameText
    let arguments ← directiveArgumentReferences (members.lookup (chars "$args"))
    let call : FunctionCallExpression := ⟨functionName, resultType, arguments⟩
    call.validate
    pure (resultType, .call call)

/-! ### Values -/

/-- `isJSONIntegerText`. -/
def isJsonIntegerText (text : Chars) : Bool :=
  let digits := if text.head? = some '-' then text.tail else text
  digits ≠ [] && digits.all (·.isDigit) && !(decide (1 < digits.length) && digits.head? = some '0')

/-- `jsonNumberToInt`. -/
def jsonNumberToInt (text : Chars) : Except String ℤ :=
  if !isJsonIntegerText text then .error ("number " ++ String.ofList text ++ " is not a supported integer")
  else
    match atoi text with
    | some n => .ok n
    | none => .error ("number " ++ String.ofList text ++ " is not a supported integer")

mutual

/-- `TypedExpressionFromValue`. -/
def typedExpressionFromValue : JsonValue → Except String TypedExpression
  | .string content => .ok (.string, .text content)
  | .number content => do
    let n ← jsonNumberToInt content
    pure (.int, .int n)
  | .bool b => .ok (.bool, .bool b)
  | .object members =>
    if members.any fun member => expressionDirectiveKeys.contains member.1 then typedExpressionDirective members
    else do
      let fields ← typedFieldsFromValues members
      pure (.object, .object fields)
  | .array items => do
    let expressions ← typedItemsFromValues 0 items
    pure (.list, .list expressions)
  | .null => .error "null is not supported"

/-- The fields of an object. -/
def typedFieldsFromValues : List (Chars × JsonValue) → Except String (List (Chars × TypedExpression))
  | [] => .ok []
  | (name, value) :: members => do
    let expression ← (typedExpressionFromValue value).mapError (("object field " ++ String.ofList name ++ ": ") ++ ·)
    let rest ← typedFieldsFromValues members
    pure ((name, expression) :: rest)

/-- The items of a list. -/
def typedItemsFromValues : ℕ → List JsonValue → Except String (List TypedExpression)
  | _, [] => .ok []
  | index, value :: items => do
    let expression ← (typedExpressionFromValue value).mapError (("list item " ++ toString index ++ ": ") ++ ·)
    let rest ← typedItemsFromValues (index + 1) items
    pure (expression :: rest)

end

/-- `validateVariableNamespace`. -/
def validateVariableNamespace (space : Namespace) : Except String Unit :=
  if [Namespace.controllerConfig, .projectConfig, .workflow, .override].contains space then .ok ()
  else .error ("unsupported variable source namespace " ++ String.ofList space.text)

/-- The variable of a member. -/
def loadVariable (space : Namespace) (member : Chars × JsonValue) : Except String Variable := do
  let expression ← (typedExpressionFromValue member.2).mapError (("field " ++ String.ofList member.1 ++ ": ") ++ ·)
  pure ⟨⟨space, member.1⟩, expression.1, .expression expression.2, false⟩

/-- `LoadVariables`. -/
def loadVariables (times : Times) (members : List (Chars × JsonValue)) (space : Namespace) : Except String (List Variable) := do
  validateVariableNamespace space
  let items ← (JsonValue.sortFields members).mapM (loadVariable space)
  let _ ← newScope times items
  pure items

/-! ### What is made of documents -/

theorem typedExpressionDirective_written {members : List (Chars × JsonValue)} {expression : TypedExpression}
    (h : typedExpressionDirective members = .ok expression) : Written true expression.1 expression.2 := by
  unfold typedExpressionDirective at h
  split at h
  · cases h
  split at h
  · cases h
  simp only [except_bind_ok] at h
  obtain ⟨_, _, _, _, kind, _, _, _, _, _, _, _, _, _, h⟩ := h
  cases h
  cases kind <;> exact ⟨rfl, rfl⟩

theorem jsonNumberToInt_range {text : Chars} {n : ℤ} (h : jsonNumberToInt text = .ok n) : IsInt n := by
  unfold jsonNumberToInt at h
  split at h
  · cases h
  · split at h
    · cases h
      rename_i hn
      exact atoi_range hn
    · cases h

mutual

/-- **Project files have written expressions.** -/
theorem typedExpressionFromValue_written : ∀ {value : JsonValue} {expression : TypedExpression},
    typedExpressionFromValue value = .ok expression → Written true expression.1 expression.2
  | .string _, _, h => by
    cases h
    exact rfl
  | .number _, _, h => by
    obtain ⟨n, hn, h⟩ := except_bind_ok.1 h
    cases h
    exact jsonNumberToInt_range hn
  | .bool _, _, h => by
    cases h
    exact trivial
  | .object members, _, h => by
    unfold typedExpressionFromValue at h
    split at h
    · exact typedExpressionDirective_written h
    · obtain ⟨fields, hfields, h⟩ := except_bind_ok.1 h
      cases h
      exact typedFieldsFromValues_written hfields
  | .array items, _, h => by
    obtain ⟨expressions, hexpressions, h⟩ := except_bind_ok.1 h
    cases h
    exact typedItemsFromValues_written hexpressions
  | .null, _, h => by cases h

theorem typedFieldsFromValues_written : ∀ {members : List (Chars × JsonValue)} {fields : List (Chars × TypedExpression)},
    typedFieldsFromValues members = .ok fields → WrittenFields true fields
  | [], _, h => by
    cases h
    exact trivial
  | (_, _) :: _, _, h => by
    obtain ⟨expression, hexpression, h⟩ := except_bind_ok.1 h
    obtain ⟨rest, hrest, h⟩ := except_bind_ok.1 h
    cases h
    exact ⟨typedExpressionFromValue_written (mapError_ok.1 hexpression), typedFieldsFromValues_written hrest⟩

theorem typedItemsFromValues_written : ∀ {index : ℕ} {items : List JsonValue} {expressions : List TypedExpression},
    typedItemsFromValues index items = .ok expressions → WrittenItems true expressions
  | _, [], _, h => by
    cases h
    exact trivial
  | _, _ :: _, _, h => by
    obtain ⟨expression, hexpression, h⟩ := except_bind_ok.1 h
    obtain ⟨rest, hrest, h⟩ := except_bind_ok.1 h
    cases h
    exact ⟨typedExpressionFromValue_written (mapError_ok.1 hexpression), typedItemsFromValues_written hrest⟩

end

theorem loadVariables_isWritten {times : Times} {members : List (Chars × JsonValue)} {space : Namespace}
    {items : List Variable} (h : loadVariables times members space = .ok items) : ∀ item ∈ items, item.IsWritten true := by
  obtain ⟨_, _, h⟩ := except_bind_ok.1 h
  obtain ⟨loaded, hloaded, h⟩ := except_bind_ok.1 h
  obtain ⟨_, _, h⟩ := except_bind_ok.1 h
  cases h
  intro item hmem
  obtain ⟨member, _, hitem⟩ := mapM_mem hloaded hmem
  obtain ⟨expression, hexpression, hitem⟩ := except_bind_ok.1 hitem
  cases hitem
  intro content hcontent
  cases hcontent
  exact typedExpressionFromValue_written (mapError_ok.1 hexpression)

mutual

/-- **What is decoded and valid is a written expression.** -/
theorem decodeExpressionValue_written (times : Times) : ∀ {value : JsonValue} {kind : Kind} {expression : Expression},
    decodeExpressionValue value kind = .ok expression → validateDefinition times kind expression = .ok () →
    Written true kind expression
  | .object members, kind, expression, h, hvalid => by
    cases kind with
    | object =>
      obtain ⟨fields, hfields, h⟩ := except_bind_ok.1 h
      cases h
      exact decodeFields_written times hfields hvalid
    | list => cases h
    | _ =>
      cases h
      cases hvalid
  | .array items, kind, expression, h, hvalid => by
    cases kind with
    | list =>
      obtain ⟨expressions, hexpressions, h⟩ := except_bind_ok.1 h
      cases h
      exact decodeItems_written times hexpressions hvalid
    | object => cases h
    | _ =>
      cases h
      cases hvalid
  | .string _, kind, _, h, _ => by
    cases kind <;> cases h <;> exact rfl
  | .number _, kind, _, h, hvalid => by
    cases kind <;> cases h <;> first | exact trivial | cases hvalid
  | .bool _, kind, _, h, hvalid => by
    cases kind <;> cases h <;> first | exact trivial | cases hvalid
  | .null, kind, _, h, hvalid => by
    cases kind <;> cases h <;> cases hvalid

theorem decodeTypedExpression_written (times : Times) : ∀ {value : JsonValue} {expression : TypedExpression},
    decodeTypedExpression value = .ok expression → validateDefinition times expression.1 expression.2 = .ok () →
    Written true expression.1 expression.2
  | .object members, _, h, hvalid => by
    unfold decodeTypedExpression at h
    obtain ⟨_, _, h⟩ := except_bind_ok.1 h
    obtain ⟨name, _, h⟩ := except_bind_ok.1 h
    split at h
    · cases h
    split at h
    · cases h
    obtain ⟨kind, _, h⟩ := except_bind_ok.1 h
    obtain ⟨expression, hexpression, h⟩ := except_bind_ok.1 h
    cases h
    exact decodeExpressionMember_written times hexpression hvalid
  | .null, _, h, _ => by cases h
  | .bool _, _, h, _ => by cases h
  | .number _, _, h, _ => by cases h
  | .string _, _, h, _ => by cases h
  | .array _, _, h, _ => by cases h

theorem decodeExpressionMember_written (times : Times) : ∀ {members : List (Chars × JsonValue)} {kind : Kind}
    {expression : Expression}, decodeExpressionMember members kind = .ok expression →
    validateDefinition times kind expression = .ok () → Written true kind expression
  | [], _, _, h, _ => by cases h
  | (_, value) :: members, _, _, h, hvalid => by
    unfold decodeExpressionMember at h
    split at h
    · exact decodeExpressionValue_written times h hvalid
    · exact decodeExpressionMember_written times h hvalid

theorem decodeFields_written (times : Times) : ∀ {members : List (Chars × JsonValue)}
    {fields : List (Chars × TypedExpression)}, decodeFields members = .ok fields →
    validateFields times fields = .ok () → WrittenFields true fields
  | [], _, h, _ => by
    cases h
    exact trivial
  | (_, value) :: members, _, h, hvalid => by
    obtain ⟨expression, hexpression, h⟩ := except_bind_ok.1 h
    obtain ⟨rest, hrest, h⟩ := except_bind_ok.1 h
    cases h
    obtain ⟨_, hfirst, hvalid⟩ := except_bind_ok.1 hvalid
    exact ⟨decodeTypedExpression_written times hexpression hfirst, decodeFields_written times hrest hvalid⟩

theorem decodeItems_written (times : Times) : ∀ {items : List JsonValue} {expressions : List TypedExpression},
    decodeItems items = .ok expressions → validateItems times expressions = .ok () → WrittenItems true expressions
  | [], _, h, _ => by
    cases h
    exact trivial
  | value :: items, _, h, hvalid => by
    obtain ⟨expression, hexpression, h⟩ := except_bind_ok.1 h
    obtain ⟨rest, hrest, h⟩ := except_bind_ok.1 h
    cases h
    obtain ⟨_, hfirst, hvalid⟩ := except_bind_ok.1 hvalid
    exact ⟨decodeTypedExpression_written times hexpression hfirst, decodeItems_written times hrest hvalid⟩

end

theorem decodeVariable_isWritten {times : Times} {value : JsonValue} {item : Variable}
    (h : decodeVariable times value = .ok item) : item.IsWritten true := by
  obtain ⟨members, _, h⟩ := except_bind_ok.1 h
  obtain ⟨_, _, h⟩ := except_bind_ok.1 h
  obtain ⟨space, _, h⟩ := except_bind_ok.1 h
  obtain ⟨key, _, h⟩ := except_bind_ok.1 h
  obtain ⟨type, _, h⟩ := except_bind_ok.1 h
  obtain ⟨sensitive, _, h⟩ := except_bind_ok.1 h
  obtain ⟨ref, _, h⟩ := except_bind_ok.1 h
  split at h
  · cases h
  obtain ⟨kind, _, h⟩ := except_bind_ok.1 h
  obtain ⟨definition, hdefinition, h⟩ := except_bind_ok.1 h
  split at h
  · cases h
  obtain ⟨_, hvalid, h⟩ := except_bind_ok.1 h
  cases h
  intro content hcontent
  obtain rfl : definition = .expression content := hcontent
  unfold Variable.validate at hvalid
  split at hvalid
  · cases hvalid
  unfold decodeDefinition at hdefinition
  split at hdefinition
  · split at hdefinition
    · cases hdefinition
    · obtain ⟨decoded, hdecoded, hdefinition⟩ := except_bind_ok.1 hdefinition
      cases hdefinition
      exact decodeExpressionMember_written times hdecoded hvalid
  · split at hdefinition <;> cases hdefinition

/-! ### Without function calls -/

mutual

/-- The expression has a function call. -/
def Expression.hasCall : Expression → Bool
  | .call _ => true
  | .object fields => anyFieldHasCall fields
  | .list items => anyItemHasCall items
  | _ => false

/-- A field of an object has one. -/
def anyFieldHasCall : List (Chars × Kind × Expression) → Bool
  | [] => false
  | (_, _, expression) :: fields => expression.hasCall || anyFieldHasCall fields

/-- An item of a list has one. -/
def anyItemHasCall : List (Kind × Expression) → Bool
  | [] => false
  | (_, expression) :: items => expression.hasCall || anyItemHasCall items

end

/-- The variable's expression has a function call. -/
def Variable.hasCall (item : Variable) : Bool :=
  match item.definition with
  | .expression expression => expression.hasCall
  | .protectedRef _ => false

mutual

theorem Written.without_calls : ∀ {kind : Kind} {expression : Expression}, Written true kind expression →
    expression.hasCall = false → Written false kind expression
  | kind, .text _, h, _ => by
    cases kind <;> exact h
  | .int, .int _, h, _ => h
  | .int, .number _, _, _ => trivial
  | .bool, .bool _, _, _ => trivial
  | .object, .object _, h, hcall => WrittenFields.without_calls h hcall
  | .list, .list _, h, hcall => WrittenItems.without_calls h hcall
  | _, .call _, _, hcall => by cases hcall

theorem WrittenFields.without_calls : ∀ {fields : List (Chars × Kind × Expression)}, WrittenFields true fields →
    anyFieldHasCall fields = false → WrittenFields false fields
  | [], _, _ => trivial
  | (_, _, _) :: _, ⟨h, hfields⟩, hcall => by
    obtain ⟨hfirst, hrest⟩ := Bool.or_eq_false_iff.1 hcall
    exact ⟨Written.without_calls h hfirst, WrittenFields.without_calls hfields hrest⟩

theorem WrittenItems.without_calls : ∀ {items : List (Kind × Expression)}, WrittenItems true items →
    anyItemHasCall items = false → WrittenItems false items
  | [], _, _ => trivial
  | (_, _) :: _, ⟨h, hitems⟩, hcall => by
    obtain ⟨hfirst, hrest⟩ := Bool.or_eq_false_iff.1 hcall
    exact ⟨Written.without_calls h hfirst, WrittenItems.without_calls hitems hrest⟩

end

theorem Variable.IsWritten.without_calls {item : Variable} (h : item.IsWritten true) (hcall : item.hasCall = false) :
    item.IsWritten false := by
  intro content hcontent
  unfold Variable.hasCall at hcall
  rw [hcontent] at hcall
  exact (h content hcontent).without_calls hcall

end GoEtl.Variables
