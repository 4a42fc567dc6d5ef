import GoEtl.Variables.Resolver

/-!
# Variables as JSON documents

`Variable.MarshalJSON` and `UnmarshalJSON`, and the same for expressions and protected references: the variables of a
submission are encoded when its run is created, decoded when a later stage is compiled, and decoded and encoded again
when the run fails. `TypedExpressionFromValue` makes expressions of the plain values of a project file.

An expression that is read back is the one that was written, except that integers have become numbers (`stored`). The
expression of a function call is written as an object that the decoder does not know.

Documents are those of `JsonValue`: a map is written and read member by member, in the order in which it is walked. The
decoder of `encoding/json` also accepts other letter cases in the names of a structure's members; it reads what it wrote
by the names as they are.
-/

namespace GoEtl.Variables

open Library Text

/-! ### Encoding -/

/-- `json.Marshal` of a `Name`, which has no tags. -/
def Name.untaggedJson (space key : Chars) : JsonValue :=
  .object [(chars "Namespace", .string space), (chars "Key", .string key)]

/-- `json.Marshal` of a `Reference`. -/
def Reference.json : Reference → JsonValue
  | .unqualified key => .object [(chars "Name", Name.untaggedJson [] key), (chars "Qualified", .bool false)]
  | .qualified name => .object [(chars "Name", Name.untaggedJson name.space.text name.key), (chars "Qualified", .bool true)]

/-- `json.Marshal` of a `FunctionArgumentReference`. -/
def FunctionArgumentReference.json (argument : FunctionArgumentReference) : JsonValue :=
  .object ([(chars "expression", .string argument.expression), (chars "reference", argument.reference.json)] ++
    optionalText "accessor" argument.accessor)

/-- `FunctionCallExpression.MarshalJSON`. -/
def FunctionCallExpression.encode (call : FunctionCallExpression) : Except String JsonValue := do
  call.validate
  pure (.object [(chars "name", .string call.name.string), (chars "result_type", .string (chars call.resultType.text)),
    (chars "arguments", .array (call.arguments.map (·.json)))])

/-- `validateExpressionContainer`. -/
def validateExpressionContainer : Kind → Expression → Except String Unit
  | .object, .object _ => .ok ()
  | .object, _ => .error "object expression must be a typed-expression map"
  | .list, .list _ => .ok ()
  | .list, _ => .error "list expression must be a typed-expression list"
  | _, _ => .ok ()

/-- A type and an expression. -/
def typedJson (kind : Kind) (value : JsonValue) : JsonValue :=
  .object [(chars "type", .string (chars kind.text)), (chars "expression", value)]

mutual

/-- `json.Marshal` of an expression. What is not an expression does not pass the validation before. -/
def encodeExpression : Expression → Except String JsonValue
  | .text content => .ok (.string content)
  | .int n => .ok (.number (itoa n))
  | .number content => .ok (.number content)
  | .bool b => .ok (.bool b)
  | .object fields => do
    let members ← encodeFields fields
    pure (.object members)
  | .list items => do
    let encoded ← encodeItems items
    pure (.array encoded)
  | .call call => call.encode
  | .other => .error "unsupported expression"

/-- The fields of an object, each by `TypedExpression.MarshalJSON`. -/
def encodeFields : List (Chars × Kind × Expression) → Except String (List (Chars × JsonValue))
  | [] => .ok []
  | (name, kind, expression) :: fields => do
    validateExpressionContainer kind expression
    let value ← encodeExpression expression
    let rest ← encodeFields fields
    pure ((name, typedJson kind value) :: rest)

/-- The items of a list, each by `TypedExpression.MarshalJSON`. -/
def encodeItems : List (Kind × Expression) → Except String (List JsonValue)
  | [] => .ok []
  | (kind, expression) :: items => do
    validateExpressionContainer kind expression
    let value ← encodeExpression expression
    let rest ← encodeItems items
    pure (typedJson kind value :: rest)

end

/-- The member with the expression or the protected reference. -/
def Definition.encode : Definition → Except String (List (Chars × JsonValue))
  | .expression content => do
    let value ← encodeExpression content
    pure [(chars "expression", value)]
  | .protectedRef _ => pure []

/-- The protected reference of a definition. -/
def Definition.ref : Definition → Option ProtectedRef
  | .expression _ => none
  | .protectedRef ref => some ref

/-- `json.Marshal` of a `variableNameJSON`. -/
def Name.json (name : Name) : JsonValue :=
  .object [(chars "namespace", .string name.space.text), (chars "key", .string name.key)]

/-- `Variable.MarshalJSON`. -/
def Variable.encode (times : Times) (item : Variable) : Except String JsonValue := do
  item.validate times
  let definition ← item.definition.encode
  pure (.object ([(chars "name", item.name.json), (chars "type", .string (chars item.kind.text))] ++ definition ++
    optionalFlag "sensitive" (item.sensitive || item.definition.ref.isSome) ++
    optional "protected_ref" (item.definition.ref.map ProtectedRef.json)))

/-! ### Decoding -/

/-- `expressionType`. -/
def expressionType (name : Chars) : Except String Kind :=
  match [Kind.string, .int, .bool, .datetime, .path, .list, .object].find? fun kind => chars kind.text = name with
  | some kind => .ok kind
  | none => .error ("unsupported expression type: " ++ String.ofList name)

/-- The members of a structure, all of which must be known. -/
def structMembers (known : List String) : JsonValue → Except String (List (Chars × JsonValue))
  | .object members =>
    match members.find? fun member => !(known.map chars).contains member.1 with
    | some member => .error ("decode typed expression: json: unknown field " ++ String.ofList member.1)
    | none => .ok members
  | .null => .ok []
  | _ => .error "decode typed expression: json: cannot unmarshal into a structure"

/-- The member of a name; of several the last one. -/
def findMember (name : String) (members : List (Chars × JsonValue)) : Option JsonValue := members.reverse.lookup (chars name)

/-- A member that is a text, or empty. -/
def textMember (name : String) (members : List (Chars × JsonValue)) : Except String Chars :=
  match findMember name members with
  | none | some .null => .ok []
  | some (.string content) => .ok content
  | some _ => .error ("decode typed expression: json: cannot unmarshal into " ++ name)

/-- A member that is a flag, or false. -/
def flagMember (name : String) (members : List (Chars × JsonValue)) : Except String Bool :=
  match findMember name members with
  | none | some .null => .ok false
  | some (.bool b) => .ok b
  | some _ => .error ("decode typed expression: json: cannot unmarshal into " ++ name)

mutual

/-- `decodeExpressionValue`. -/
def decodeExpressionValue : JsonValue → Kind → Except String Expression
  | .object members, .object => do
    let fields ← decodeFields members
    pure (.object fields)
  | .null, .object => .error "object expression must be a JSON object"
  | _, .object => .error "decode object expression"
  | .array items, .list => do
    let expressions ← decodeItems items
    pure (.list expressions)
  | .null, .list => .error "list expression must be a JSON array"
  | _, .list => .error "decode list expression"
  | .string content, _ => .ok (.text content)
  | .number content, _ => .ok (.number content)
  | .bool b, _ => .ok (.bool b)
  | _, _ => .ok .other

/-- `TypedExpression.UnmarshalJSON`. -/
def decodeTypedExpression : JsonValue → Except String TypedExpression
  | .object members => do
    let _ ← structMembers ["type", "expression"] (.object members)
    let name ← textMember "type" members
    if name = [] then .error "typed expression type is required"
    else if (findMember "expression" members).isNone then .error "typed expression expression is required"
    else do
      let kind ← expressionType name
      let expression ← decodeExpressionMember members kind
      pure (kind, expression)
  | .null => .error "typed expression type is required"
  | _ => .error "decode typed expression: json: cannot unmarshal into a structure"

/-- The last member with the name `expression`. -/
def decodeExpressionMember : List (Chars × JsonValue) → Kind → Except String Expression
  | [], _ => .error "typed expression expression is required"
  | (name, value) :: members, kind =>
    if name = chars "expression" ∧ (findMember "expression" members).isNone then decodeExpressionValue value kind
    else decodeExpressionMember members kind

/-- The fields of an object. -/
def decodeFields : List (Chars × JsonValue) → Except String (List (Chars × TypedExpression))
  | [] => .ok []
  | (name, value) :: members => do
    let expression ← decodeTypedExpression value
    let rest ← decodeFields members
    pure ((name, expression) :: rest)

/-- The items of a list. -/
def decodeItems : List JsonValue → Except String (List TypedExpression)
  | [] => .ok []
  | value :: items => do
    let expression ← decodeTypedExpression value
    let rest ← decodeItems items
    pure (expression :: rest)

end

/-- `ProtectedRef.UnmarshalJSON`. -/
def decodeProtectedRef (value : JsonValue) : Except String ProtectedRef := do
  let members ← structMembers ["provider", "key", "redaction_label"] value
  let provider ← textMember "provider" members
  let key ← textMember "key" members
  let label ← textMember "redaction_label" members
  match [Provider.workerEnvironment, .test].find? fun candidate => candidate.text = provider with
  | none =>
    .error (if provider = [] then "protected reference provider is required"
      else "unsupported protected reference provider: " ++ String.ofList provider)
  | some provider => do
    let ref : ProtectedRef := ⟨provider, key, label⟩
    ref.validate
    pure ref.normalize

/-- A member that is a protected reference, or missing. -/
def protectedRefMember (members : List (Chars × JsonValue)) : Except String (Option ProtectedRef) :=
  match findMember "protected_ref" members with
  | none | some .null => .ok none
  | some value => do
    let ref ← decodeProtectedRef value
    pure (some ref)

/-- The definition of a variable that is decoded. -/
def decodeDefinition (members : List (Chars × JsonValue)) (kind : Kind) (ref : Option ProtectedRef) :
    Except String Definition :=
  match ref with
  | none =>
    if (findMember "expression" members).isNone then .error "variable expression is required"
    else do
      let expression ← decodeExpressionMember members kind
      pure (.expression expression)
  | some ref =>
    if (findMember "expression" members).isSome then .error "protected reference variable expression must be omitted"
    else pure (.protectedRef ref)

/-- `Variable.UnmarshalJSON`. -/
def decodeVariable (times : Times) (value : JsonValue) : Except String Variable := do
  let members ← structMembers ["name", "type", "expression", "sensitive", "protected_ref"] value
  let nameMembers ← structMembers ["namespace", "key"] ((findMember "name" members).getD .null)
  let space ← textMember "namespace" nameMembers
  let key ← textMember "key" nameMembers
  let type ← textMember "type" members
  let sensitive ← flagMember "sensitive" members
  let ref ← protectedRefMember members
  if type = [] then .error "variable type is required"
  else do
    let kind ← expressionType type
    let definition ← decodeDefinition members kind ref
    match Namespace.parse space with
    | none => .error ("unsupported namespace: " ++ String.ofList space)
    | some space => do
      let item : Variable := ⟨⟨space, key⟩, kind, definition, sensitive || ref.isSome⟩
      item.validate times
      pure item

/-! ### What is read back -/

mutual

/-- The expression that is read back. -/
def stored : Expression → Expression
  | .int n => .number (itoa n)
  | .object fields => .object (storedFields fields)
  | .list items => .list (storedItems items)
  | expression => expression

/-- The fields of an object. -/
def storedFields : List (Chars × Kind × Expression) → List (Chars × Kind × Expression)
  | [] => []
  | (name, kind, expression) :: fields => (name, kind, stored expression) :: storedFields fields

/-- The items of a list. -/
def storedItems : List (Kind × Expression) → List (Kind × Expression)
  | [] => []
  | (kind, expression) :: items => (kind, stored expression) :: storedItems items

end

/-- The definition that is read back. -/
def Definition.stored : Definition → Definition
  | .expression content => .expression (Variables.stored content)
  | .protectedRef ref => .protectedRef ref.normalize

/-- The variable that is read back. -/
def Variable.stored (item : Variable) : Variable :=
  { item with definition := item.definition.stored, sensitive := item.sensitive || item.definition.ref.isSome }

mutual

/-- The expressions that the controller makes of documents: containers hold their members, texts stand for scalars, and
integers have 64 bits. There may be function calls. -/
def Written (calls : Bool) : Kind → Expression → Prop
  | kind, .text _ => kind.isScalar = true
  | .int, .int n => IsInt n
  | .int, .number _ => True
  | .bool, .bool _ => True
  | .object, .object fields => WrittenFields calls fields
  | .list, .list items => WrittenItems calls items
  | kind, .call call => calls = true ∧ call.resultType = kind
  | _, _ => False

/-- The fields of an object. -/
def WrittenFields (calls : Bool) : List (Chars × Kind × Expression) → Prop
  | [] => True
  | (_, kind, expression) :: fields => Written calls kind expression ∧ WrittenFields calls fields

/-- The items of a list. -/
def WrittenItems (calls : Bool) : List (Kind × Expression) → Prop
  | [] => True
  | (kind, expression) :: items => Written calls kind expression ∧ WrittenItems calls items

end

/-- A variable with such an expression, or a protected reference. -/
def Variable.IsWritten (calls : Bool) (item : Variable) : Prop :=
  ∀ expression, item.definition = .expression expression → Written calls item.kind expression

/-! ### The round trip -/

theorem expressionType_text (kind : Kind) : expressionType (chars kind.text) = .ok kind := by
  cases kind <;> rfl

/-- A document with a type and an expression. -/
theorem decodeTypedExpression_pair (kind : Kind) (value : JsonValue) :
    decodeTypedExpression (typedJson kind value) = (do
      let expression ← decodeExpressionValue value kind
      pure (kind, expression)) := by
  have hmember : decodeExpressionMember [(chars "type", .string (chars kind.text)), (chars "expression", value)] kind =
      decodeExpressionValue value kind := rfl
  have hname : chars kind.text ≠ [] := by
    cases kind <;> decide
  show (if chars kind.text = [] then _ else _) = _
  rw [if_neg hname]
  show (do
    let kind ← expressionType (chars kind.text)
    let expression ← decodeExpressionMember [(chars "type", .string _), (chars "expression", value)] kind
    pure (kind, expression)) = _
  rw [expressionType_text]
  show (do
    let expression ← decodeExpressionMember [(chars "type", .string _), (chars "expression", value)] kind
    pure (kind, expression)) = _
  rw [hmember]

/-- The expression is encoded, and read back from what was written. -/
structure RoundTrip (kind : Kind) (expression : Expression) (value : JsonValue) : Prop where
  encoded : encodeExpression expression = .ok value
  decoded : decodeExpressionValue value kind = .ok (stored expression)
  again : encodeExpression (stored expression) = .ok value
  container : validateExpressionContainer kind expression = .ok ()
  containerAgain : validateExpressionContainer kind (stored expression) = .ok ()

mutual

/-- **An expression without function calls is read back.** -/
theorem Written.roundTrip : ∀ {kind : Kind} {expression : Expression}, Written false kind expression →
    ∃ value, RoundTrip kind expression value
  | kind, .text content, h => by
    refine ⟨.string content, rfl, ?_, rfl, ?_, ?_⟩ <;> cases kind <;> first | rfl | cases h
  | .int, .int n, _ => ⟨.number (itoa n), rfl, rfl, rfl, rfl, rfl⟩
  | .int, .number content, _ => ⟨.number content, rfl, rfl, rfl, rfl, rfl⟩
  | .bool, .bool b, _ => ⟨.bool b, rfl, rfl, rfl, rfl, rfl⟩
  | .object, .object fields, h => by
    obtain ⟨members, hencoded, hdecoded, hagain⟩ := WrittenFields.roundTrip h
    refine ⟨.object members, ?_, ?_, ?_, rfl, rfl⟩
    · rw [encodeExpression, hencoded]
      rfl
    · rw [decodeExpressionValue, hdecoded]
      rfl
    · rw [stored, encodeExpression, hagain]
      rfl
  | .list, .list items, h => by
    obtain ⟨values, hencoded, hdecoded, hagain⟩ := WrittenItems.roundTrip h
    refine ⟨.array values, ?_, ?_, ?_, rfl, rfl⟩
    · rw [encodeExpression, hencoded]
      rfl
    · rw [decodeExpressionValue, hdecoded]
      rfl
    · rw [stored, encodeExpression, hagain]
      rfl

theorem WrittenFields.roundTrip : ∀ {fields : List (Chars × Kind × Expression)}, WrittenFields false fields →
    ∃ members, encodeFields fields = .ok members ∧ decodeFields members = .ok (storedFields fields) ∧
      encodeFields (storedFields fields) = .ok members
  | [], _ => ⟨[], rfl, rfl, rfl⟩
  | (name, kind, expression) :: fields, ⟨h, hfields⟩ => by
    obtain ⟨value, htrip⟩ := Written.roundTrip h
    obtain ⟨members, hencoded, hdecoded, hagain⟩ := WrittenFields.roundTrip hfields
    refine ⟨(name, typedJson kind value) :: members, ?_, ?_, ?_⟩
    · rw [encodeFields, htrip.container, htrip.encoded, hencoded]
      rfl
    · rw [decodeFields, decodeTypedExpression_pair, htrip.decoded, hdecoded]
      rfl
    · rw [storedFields, encodeFields, htrip.containerAgain, htrip.again, hagain]
      rfl

theorem WrittenItems.roundTrip : ∀ {items : List (Kind × Expression)}, WrittenItems false items →
    ∃ values, encodeItems items = .ok values ∧ decodeItems values = .ok (storedItems items) ∧
      encodeItems (storedItems items) = .ok values
  | [], _ => ⟨[], rfl, rfl, rfl⟩
  | (kind, expression) :: items, ⟨h, hitems⟩ => by
    obtain ⟨value, htrip⟩ := Written.roundTrip h
    obtain ⟨values, hencoded, hdecoded, hagain⟩ := WrittenItems.roundTrip hitems
    refine ⟨typedJson kind value :: values, ?_, ?_, ?_⟩
    · rw [encodeItems, htrip.container, htrip.encoded, hencoded]
      rfl
    · rw [decodeItems, decodeTypedExpression_pair, htrip.decoded, hdecoded]
      rfl
    · rw [storedItems, encodeItems, htrip.containerAgain, htrip.again, hagain]
      rfl

end

mutual

/-- What is read back is as valid as what was written. -/
theorem Written.validate_stored (times : Times) : ∀ {kind : Kind} {expression : Expression}, Written false kind expression →
    validateDefinition times kind (stored expression) = validateDefinition times kind expression
  | _, .text _, _ => rfl
  | .int, .int n, h => by
    have hn : atoi (itoa n) = some n := atoi_itoa h
    show (if (atoi (itoa n)).isSome then _ else _) = _
    rw [hn]
    rfl
  | .int, .number _, _ => rfl
  | .bool, .bool _, _ => rfl
  | .object, .object _, h => WrittenFields.validate_stored times h
  | .list, .list _, h => WrittenItems.validate_stored times h

theorem WrittenFields.validate_stored (times : Times) : ∀ {fields : List (Chars × Kind × Expression)},
    WrittenFields false fields → validateFields times (storedFields fields) = validateFields times fields
  | [], _ => rfl
  | (_, _, _) :: _, ⟨h, hfields⟩ => by
    rw [storedFields, validateFields, validateFields, Written.validate_stored times h,
      WrittenFields.validate_stored times hfields]

theorem WrittenItems.validate_stored (times : Times) : ∀ {items : List (Kind × Expression)},
    WrittenItems false items → validateItems times (storedItems items) = validateItems times items
  | [], _ => rfl
  | (_, _) :: _, ⟨h, hitems⟩ => by
    rw [storedItems, validateItems, validateItems, Written.validate_stored times h, WrittenItems.validate_stored times hitems]

end

mutual

/-- **What is read back resolves as what was written.** -/
theorem Written.resolve_stored (config : ResolverConfig) (refer : Refer) : ∀ {kind : Kind} {expression : Expression},
    Written false kind expression → ∀ context,
      resolveExpression config refer context kind (stored expression) = resolveExpression config refer context kind expression
  | _, .text _, _, _ => rfl
  | .int, .int n, h, context => by
    have hn : atoi (itoa n) = some n := atoi_itoa h
    show locate context (match atoi (itoa n) with | some value => _ | none => _) = _
    rw [hn]
    rfl
  | .int, .number _, _, _ => rfl
  | .bool, .bool _, _, _ => rfl
  | .object, .object fields, h, context => by
    rw [stored, resolveExpression, resolveExpression, WrittenFields.resolve_stored config refer h context]
  | .list, .list items, h, context => by
    rw [stored, resolveExpression, resolveExpression, WrittenItems.resolve_stored config refer h context 0]

theorem WrittenFields.resolve_stored (config : ResolverConfig) (refer : Refer) :
    ∀ {fields : List (Chars × Kind × Expression)}, WrittenFields false fields → ∀ context,
      resolveFields config refer context (storedFields fields) = resolveFields config refer context fields
  | [], _, _ => rfl
  | (_, _, _) :: _, ⟨h, hfields⟩, context => by
    rw [storedFields, resolveFields, resolveFields, Written.resolve_stored config refer h,
      WrittenFields.resolve_stored config refer hfields]

theorem WrittenItems.resolve_stored (config : ResolverConfig) (refer : Refer) :
    ∀ {items : List (Kind × Expression)}, WrittenItems false items → ∀ context index,
      resolveItems config refer context index (storedItems items) = resolveItems config refer context index items
  | [], _, _, _ => rfl
  | (_, _) :: _, ⟨h, hitems⟩, context, index => by
    rw [storedItems, resolveItems, resolveItems, Written.resolve_stored config refer h,
      WrittenItems.resolve_stored config refer hitems]

end

/-! ### Variables -/

theorem Namespace.parse_text (space : Namespace) : Namespace.parse space.text = some space := by
  cases space <;> decide +kernel

theorem ProtectedRef.label_ne_nil (ref : ProtectedRef) : ref.redactionLabelValue ≠ [] := by
  unfold ProtectedRef.redactionLabelValue
  split
  · assumption
  · simp [opening]

/-- A reference that has its label keeps it. -/
theorem ProtectedRef.normalize_of_label {ref : ProtectedRef} (h : ref.redactionLabel ≠ []) : ref.normalize = ref := by
  rw [ProtectedRef.normalize, ProtectedRef.redactionLabelValue, if_pos h]

theorem ProtectedRef.normalize_normalize (ref : ProtectedRef) : ref.normalize.normalize = ref.normalize :=
  ProtectedRef.normalize_of_label ref.label_ne_nil

theorem ProtectedRef.json_eq (ref : ProtectedRef) :
    ref.json = .object [(chars "provider", .string ref.provider.text), (chars "key", .string ref.key),
      (chars "redaction_label", .string ref.redactionLabelValue)] := by
  have hlabel : ref.normalize.redactionLabel ≠ [] := ref.label_ne_nil
  rw [ProtectedRef.json, optionalText, if_neg hlabel]
  rfl

theorem ProtectedRef.json_normalize (ref : ProtectedRef) : ref.normalize.json = ref.json := by
  unfold ProtectedRef.json
  rw [ref.normalize_normalize]
  rfl

theorem Provider.find_text (provider : Provider) :
    [Provider.workerEnvironment, .test].find? (fun candidate => candidate.text = provider.text) = some provider := by
  cases provider <;> decide +kernel

/-- **A protected reference is read back with its label.** -/
theorem decodeProtectedRef_json {ref : ProtectedRef} (h : ref.validate = .ok ()) :
    decodeProtectedRef ref.json = .ok ref.normalize := by
  have hvalid : ProtectedRef.validate ⟨ref.provider, ref.key, ref.redactionLabelValue⟩ = .ok () := h
  rw [ref.json_eq]
  refine except_bind_ok.2 ⟨_, rfl, except_bind_ok.2 ⟨ref.provider.text, rfl, except_bind_ok.2 ⟨ref.key, rfl,
    except_bind_ok.2 ⟨ref.redactionLabelValue, rfl, ?_⟩⟩⟩⟩
  simp only [ref.provider.find_text]
  exact except_bind_ok.2 ⟨(), hvalid, congrArg Except.ok ref.normalize_normalize⟩

/-- What the members of a variable have to be for it to be decoded. -/
theorem decodeVariable_members {times : Times} {members : List (Chars × JsonValue)} {item : Variable} (flag : Bool)
    (ref : Option ProtectedRef)
    (hknown : structMembers ["name", "type", "expression", "sensitive", "protected_ref"] (.object members) = .ok members)
    (hname : findMember "name" members = some item.name.json)
    (htype : textMember "type" members = .ok (chars item.kind.text)) (hflag : flagMember "sensitive" members = .ok flag)
    (href : protectedRefMember members = .ok ref) (hsensitive : (flag || ref.isSome) = item.sensitive)
    (hdefinition : decodeDefinition members item.kind ref = .ok item.definition) (hvalid : item.validate times = .ok ()) :
    decodeVariable times (.object members) = .ok item := by
  have hkind : chars item.kind.text ≠ [] := by
    cases item.kind <;> decide
  refine except_bind_ok.2 ⟨members, hknown, except_bind_ok.2
    ⟨[(chars "namespace", .string item.name.space.text), (chars "key", .string item.name.key)], ?_, except_bind_ok.2
    ⟨item.name.space.text, rfl, except_bind_ok.2 ⟨item.name.key, rfl, except_bind_ok.2 ⟨_, htype, except_bind_ok.2
    ⟨flag, hflag, except_bind_ok.2 ⟨ref, href, ?_⟩⟩⟩⟩⟩⟩⟩
  · rw [hname]
    rfl
  · rw [if_neg hkind]
    refine except_bind_ok.2 ⟨item.kind, expressionType_text item.kind, except_bind_ok.2 ⟨item.definition, hdefinition, ?_⟩⟩
    simp only [item.name.space.parse_text, hsensitive]
    exact except_bind_ok.2 ⟨(), hvalid, rfl⟩

theorem Variable.validate_stored {times : Times} {item : Variable} (hwritten : item.IsWritten false) :
    item.stored.validate times = item.validate times := by
  obtain ⟨name, kind, definition, sensitive⟩ := item
  cases definition with
  | expression content =>
    have hsame : validateDefinition times kind (Variables.stored content) = validateDefinition times kind content :=
      (hwritten content rfl).validate_stored times
    simp only [Variable.validate, Variable.stored, Definition.stored]
    rw [hsame]
    rfl
  | protectedRef ref => rfl

/-- The members that a variable is written with. -/
def Variable.members (item : Variable) (definition : List (Chars × JsonValue)) : List (Chars × JsonValue) :=
  [(chars "name", item.name.json), (chars "type", .string (chars item.kind.text))] ++ definition ++
    optionalFlag "sensitive" (item.sensitive || item.definition.ref.isSome) ++
    optional "protected_ref" (item.definition.ref.map ProtectedRef.json)

/-- **A variable without function calls is read back**, and is written again as it was. -/
theorem Variable.roundTrip (times : Times) {item : Variable} (hwritten : item.IsWritten false)
    (hvalid : item.validate times = .ok ()) :
    ∃ value, item.encode times = .ok value ∧ decodeVariable times value = .ok item.stored ∧
      item.stored.encode times = .ok value := by
  have hagain : item.stored.validate times = .ok () := (Variable.validate_stored hwritten).trans hvalid
  obtain ⟨name, kind, definition, sensitive⟩ := item
  cases definition with
  | expression content =>
    obtain ⟨value, htrip⟩ := (hwritten content rfl).roundTrip
    have hencode : Definition.encode (.expression content) = .ok [(chars "expression", value)] := by
      rw [Definition.encode, htrip.encoded]
      rfl
    have hencodeAgain : Definition.encode (.expression (Variables.stored content)) = .ok [(chars "expression", value)] := by
      rw [Definition.encode, htrip.again]
      rfl
    refine ⟨.object (Variable.members ⟨name, kind, .expression content, sensitive⟩ [(chars "expression", value)]),
      except_bind_ok.2 ⟨(), hvalid, except_bind_ok.2 ⟨_, hencode, rfl⟩⟩, ?_, ?_⟩
    · cases sensitive <;>
        refine decodeVariable_members _ none rfl rfl rfl rfl rfl rfl ?_ hagain
      all_goals
        show (decodeExpressionValue value kind >>= fun expression => pure (Definition.expression expression)) = _
        rw [htrip.decoded]
        rfl
    · refine except_bind_ok.2 ⟨(), hagain, except_bind_ok.2 ⟨_, hencodeAgain, ?_⟩⟩
      cases sensitive <;> rfl
  | protectedRef ref =>
    have href : ref.validate = .ok () := by
      simp only [Variable.validate] at hvalid
      split at hvalid
      · cases hvalid
      · exact hvalid
    refine ⟨.object (Variable.members ⟨name, kind, .protectedRef ref, sensitive⟩ []),
      except_bind_ok.2 ⟨(), hvalid, except_bind_ok.2 ⟨[], rfl, rfl⟩⟩, ?_, ?_⟩
    · have hflag : Variable.members ⟨name, kind, .protectedRef ref, sensitive⟩ [] =
          [(chars "name", name.json), (chars "type", .string (chars kind.text)), (chars "sensitive", .bool true),
            (chars "protected_ref", ref.json)] := by
        cases sensitive <;> rfl
      rw [hflag]
      refine decodeVariable_members true (some ref.normalize) rfl rfl rfl rfl ?_ ?_ rfl hagain
      · show (decodeProtectedRef ref.json >>= fun ref => pure (some ref)) = .ok (some ref.normalize)
        rw [decodeProtectedRef_json href]
        rfl
      · cases sensitive <;> rfl
    · refine except_bind_ok.2 ⟨(), hagain, except_bind_ok.2 ⟨[], rfl, ?_⟩⟩
      have hjson : ref.normalize.json = ref.json := ref.json_normalize
      simp only [Variable.members, Variable.stored, Definition.stored, Definition.ref, Option.map_some, hjson]
      cases sensitive <;> rfl

/-! ### Scopes -/

/-- A variable, or what is read back of it. -/
def ReadBack (item item' : Variable) : Prop := item' = item ∨ item.IsWritten false ∧ item' = item.stored

theorem ReadBack.name_eq {item item' : Variable} (h : ReadBack item item') : item.name = item'.name := by
  rcases h with rfl | ⟨_, rfl⟩ <;> rfl

/-- What is read back has the same meaning where references have. -/
theorem ReadBack.resolveDefinition_eq (config : ResolverConfig) (refer : Refer) {item item' : Variable}
    (h : ReadBack item item') (context : ResolutionContext) :
    resolveDefinition config refer item' context = resolveDefinition config refer item context := by
  rcases h with rfl | ⟨hwritten, rfl⟩
  · rfl
  · obtain ⟨name, kind, definition, sensitive⟩ := item
    cases definition with
    | expression content =>
      have hsame := (hwritten content rfl).resolve_stored config refer { context with chain := context.chain ++ [name] }
      have hsensitive : (sensitive || Option.isSome (none : Option ProtectedRef)) = sensitive := by simp
      simp only [resolveDefinition, Variable.stored, Definition.stored, Definition.ref, hsensitive]
      exact congrArg (· >>= _) hsame
    | protectedRef ref =>
      have hlabel : ref.normalize.redactionLabelValue = ref.redactionLabelValue := if_pos ref.label_ne_nil
      have hsame : protectedReferenceValue kind ref.normalize = protectedReferenceValue kind ref := by
        unfold protectedReferenceValue
        rw [hlabel, ref.normalize_normalize]
        rfl
      simp only [resolveDefinition, Variable.stored, Definition.stored, hsame]

/-- **What is read back resolves as what was written.** By induction on the depth that is left. -/
theorem resolveVariable_readBack (config : ResolverConfig) {scopes scopes' : List Scope} (h : Scopes ReadBack scopes scopes')
    (left : ℕ) : ∀ {item item' : Variable}, ReadBack item item' → ∀ context,
      resolveVariable config scopes' left item' context = resolveVariable config scopes left item context := by
  induction left with
  | zero =>
    intro item item' hitem context
    rw [resolveVariable, resolveVariable, hitem.name_eq]
  | succ left ih =>
    intro item item' hitem context
    have hrefer : resolveReference config scopes' left = resolveReference config scopes left := by
      funext reference context
      have hrel := lookupVariable_rel (fun _ _ => ReadBack.name_eq) (fun _ => .inl rfl) config h reference
      unfold resolveReference
      generalize lookupVariable config scopes reference = x at hrel ⊢
      generalize lookupVariable config scopes' reference = y at hrel ⊢
      cases hrel with
      | some hnext => exact ih hnext context
      | none => rfl
    rw [resolveVariable_succ, resolveVariable_succ, hrefer, hitem.name_eq, hitem.resolveDefinition_eq]

theorem resolve_readBack (config : ResolverConfig) {scopes scopes' : List Scope} (h : Scopes ReadBack scopes scopes')
    (reference : Reference) : resolve config scopes' reference = resolve config scopes reference := by
  have hrel := lookupVariable_rel (fun _ _ => ReadBack.name_eq) (fun _ => .inl rfl) config h reference
  unfold resolve
  generalize lookupVariable config scopes reference = x at hrel ⊢
  generalize lookupVariable config scopes' reference = y at hrel ⊢
  cases hrel with
  | some hitem => simp only [resolveVariable_readBack config h config.depth hitem, hitem.name_eq]
  | none => rfl

end GoEtl.Variables
