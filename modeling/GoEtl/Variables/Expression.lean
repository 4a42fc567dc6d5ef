import GoEtl.Variables.Reference

/-!
# Variables and their expressions

`internal/variable/type.go`, `expression.go`, `function_call.go`, `protected_ref.go`, `variable.go` and `scope.go`: a
variable has a name, a type and an expression of that type, which is a literal, a text with placeholders, an object or a
list of further expressions or a function call, or else a reference to a protected value that only workers read.

Go keeps an expression as `any`; here every value that the code distinguishes has its own constructor. A map of
expressions is a list of fields, in the order in which the program walks it.
-/

namespace GoEtl.Variables

open Text

/-- `Kind`. -/
inductive Kind where
  | string
  | int
  | bool
  | datetime
  | path
  | list
  | object
  deriving DecidableEq, Repr

/-- `Type.String`. -/
def Kind.text : Kind → String
  | .string => "string"
  | .int => "int"
  | .bool => "bool"
  | .datetime => "datetime"
  | .path => "path"
  | .list => "list"
  | .object => "object"

/-- A type of scalars. -/
def Kind.isScalar : Kind → Bool
  | .list | .object => false
  | _ => true

/-- The functions of `time` on RFC 3339 texts: which of them `Parse` reads, and what `Format`, `fmt.Sprint` and
`encoding/json` write for the time that was read. A time is kept as the text that it was read from. -/
structure Times where
  valid : Chars → Bool
  (format print marshal : Chars → Chars)

/-! ### Function calls -/

/-- `FunctionName`. -/
structure FunctionName where
  (space name : Chars)
  deriving DecidableEq, Repr

/-- `FunctionName.String`, of a valid name. -/
def FunctionName.string (name : FunctionName) : Chars := name.space ++ '.' :: name.name

/-- `FunctionArgumentReference`. -/
structure FunctionArgumentReference where
  expression : Chars
  reference : Reference
  accessor : Chars
  deriving DecidableEq, Repr

/-- `functionIdentifierPattern`. -/
def isIdentifier : Chars → Bool
  | [] => false
  | c :: rest => isLetterOrUnderscore c && rest.all fun c => isLetterOrUnderscore c || c.isDigit
where
  isLetterOrUnderscore (c : Char) : Bool := c.isAlpha || c = '_'

/-- `FunctionName.Validate`. -/
def FunctionName.validate (name : FunctionName) : Except String Unit :=
  if !isIdentifier name.space then .error ("function namespace must be an identifier: " ++ String.ofList name.space)
  else if !isIdentifier name.name then .error ("function name must be an identifier: " ++ String.ofList name.name)
  else .ok ()

/-- The field accessors of a function argument are identifiers. -/
def validateArgumentPart (part : Chars) : Except String Unit :=
  match part with
  | '.' :: field =>
    if isIdentifier field then .ok ()
    else .error ("function argument field accessor must be an identifier: " ++ String.ofList field)
  | _ => .ok ()

/-- The key of a reference. -/
def Reference.keyText : Reference → Chars
  | .unqualified key => key
  | .qualified name => name.key

/-- `validateFunctionArgumentReferenceText`. -/
def validateFunctionArgumentReferenceText (text : Chars) : Except String Unit :=
  if hasAny (chars "\"'()+, ") text then
    .error ("function argument must be a reference with optional accessors: " ++ String.ofList text)
  else do
    let reference ← parseReference (splitReferenceAccessor text).1
    if [chars "true", chars "false", chars "null"].contains reference.keyText then
      .error ("function argument must not be a literal: " ++ String.ofList text)
    else if !isIdentifier reference.keyText then
      .error ("function argument reference key must be an identifier: " ++ String.ofList reference.keyText)
    else if (splitReferenceAccessor text).2 = [] then pure ()
    else do
      let parts ← parseScalarAccessors (splitReferenceAccessor text).2
      parts.forM validateArgumentPart

/-- `NewFunctionArgumentReference`. -/
def newFunctionArgumentReference (text : Chars) : Except String FunctionArgumentReference :=
  if trim text = [] then .error "function argument reference is required"
  else if trim text ≠ text then
    .error "function argument reference must not contain leading or trailing whitespace"
  else do
    validateFunctionArgumentReferenceText text
    validateReferenceExpression text
    let (reference, accessor) ← parseReferenceExpression text
    pure ⟨text, reference, accessor⟩

/-- `FunctionArgumentReference.Validate`. -/
def FunctionArgumentReference.validate (argument : FunctionArgumentReference) : Except String Unit := do
  let parsed ← newFunctionArgumentReference argument.expression
  if parsed.reference = argument.reference ∧ parsed.accessor = argument.accessor then pure ()
  else .error ("function argument reference fields do not match expression " ++ String.ofList argument.expression)

/-- `FunctionCallExpression`. -/
structure FunctionCallExpression where
  name : FunctionName
  resultType : Kind
  arguments : List FunctionArgumentReference
  deriving DecidableEq, Repr

/-- `FunctionCallExpression.Validate`. -/
def FunctionCallExpression.validate (call : FunctionCallExpression) : Except String Unit := do
  call.name.validate
  if call.arguments = [] then .error "function call requires at least one argument"
  else call.arguments.forM FunctionArgumentReference.validate

/-! ### Expressions -/

/-- The values of `TypedExpression.Expression`. -/
inductive Expression where
  | text (text : Chars)
  | int (value : ℤ)
  /-- A `json.Number`. -/
  | number (text : Chars)
  | bool (value : Bool)
  | object (fields : List (Chars × Kind × Expression))
  | list (items : List (Kind × Expression))
  | call (call : FunctionCallExpression)
  /-- Anything else that JSON decodes to. -/
  | other

/-- `TypedExpression`. -/
abbrev TypedExpression := Kind × Expression

/-- The error of an expression that is not of its type. -/
def expressionMismatch : Kind → String
  | .string => "string expression must be a string"
  | .path => "path expression must be a string"
  | .int => "int expression must be a literal or whole-value reference"
  | .bool => "bool expression must be a literal or whole-value reference"
  | .datetime => "datetime expression must be a string"
  | .object => "object expression must be a typed-expression map"
  | .list => "list expression must be a typed-expression list"

/-- `ValidateDefinition` of a text, which may be a reference to a value of any type. -/
def validateText (times : Times) (kind : Kind) (text : Chars) : Except String Unit := do
  let tokens ← parseInterpolationTokens text
  if (wholeReference tokens).isSome then pure ()
  else
    match kind with
    | .string | .path => pure ()
    | .datetime => if times.valid text then pure () else .error "parse datetime expression"
    | kind => .error (expressionMismatch kind)

mutual

/-- `ValidateDefinition`. -/
def validateDefinition (times : Times) : Kind → Expression → Except String Unit
  | kind, .call call =>
    if call.resultType ≠ kind then
      .error ("function result type " ++ call.resultType.text ++ " does not match expression type " ++ kind.text)
    else call.validate
  | kind, .text text => validateText times kind text
  | .int, .int _ => .ok ()
  | .int, .number text => if (atoi text).isSome then .ok () else .error "parse int expression"
  | .bool, .bool _ => .ok ()
  | .object, .object fields => validateFields times fields
  | .list, .list items => validateItems times items
  | kind, _ => .error (expressionMismatch kind)

/-- The fields of an object. -/
def validateFields (times : Times) : List (Chars × Kind × Expression) → Except String Unit
  | [] => .ok ()
  | (_, kind, expression) :: fields => do
    validateDefinition times kind expression
    validateFields times fields

/-- The items of a list. -/
def validateItems (times : Times) : List (Kind × Expression) → Except String Unit
  | [] => .ok ()
  | (kind, expression) :: items => do
    validateDefinition times kind expression
    validateItems times items

end

/-! ### Variables -/

/-- The providers of protected values. -/
inductive Provider where
  | workerEnvironment
  | test
  deriving DecidableEq, Repr

/-- `ProtectedRef.Provider`. -/
def Provider.text : Provider → Chars
  | .workerEnvironment => chars "worker_env"
  | .test => chars "test"

/-- `ProtectedRef`, with a provider that is supported. -/
structure ProtectedRef where
  provider : Provider
  (key redactionLabel : Chars)
  deriving DecidableEq, Repr

/-- `ProtectedRef.Provenance`. -/
def ProtectedRef.provenance (ref : ProtectedRef) : Chars := ref.provider.text ++ '.' :: ref.key

/-- `RedactionLabelValue`. -/
def ProtectedRef.redactionLabelValue (ref : ProtectedRef) : Chars :=
  if ref.redactionLabel ≠ [] then ref.redactionLabel else opening ++ ref.provenance ++ ['\x7d']

/-- `ProtectedRef.Normalize`. -/
def ProtectedRef.normalize (ref : ProtectedRef) : ProtectedRef := { ref with redactionLabel := ref.redactionLabelValue }

/-- `ProtectedRef.Validate`. -/
def ProtectedRef.validate (ref : ProtectedRef) : Except String Unit :=
  if ref.key = [] then .error "protected reference key is required" else .ok ()

/-- What a variable stands for: an expression, or a protected reference without one. -/
inductive Definition where
  | expression (expression : Expression)
  | protectedRef (ref : ProtectedRef)

/-- `Variable`. -/
structure Variable where
  name : Name
  kind : Kind
  definition : Definition
  sensitive : Bool

/-- `Variable.Validate`. -/
def Variable.validate (times : Times) (item : Variable) : Except String Unit :=
  if item.name.key = [] then .error "variable key is required"
  else
    match item.definition with
    | .protectedRef ref => ref.validate
    | .expression expression => validateDefinition times item.kind expression

/-- `Scope`: the variables, each with its own key. -/
abbrev Scope := List Variable

/-- The loop of `NewScope`. -/
def addVariables (times : Times) (scope : Scope) : List Variable → Except String Scope
  | [] => .ok scope
  | item :: rest => do
    item.validate times
    if scope.any (·.name.key = item.name.key) then .error ("duplicate variable key: " ++ String.ofList item.name.key)
    else addVariables times (scope ++ [item]) rest

/-- `NewScope`. -/
def newScope (times : Times) (items : List Variable) : Except String Scope := addVariables times [] items

/-- The variable of the last of the scopes that has one that passes. -/
def lastVariable (scopes : List Scope) (found : Variable → Bool) : Option Variable :=
  scopes.reverse.findSome? fun scope => scope.find? found

/-- `Set.LookupReference`: later scopes hide earlier ones, and a qualified reference sees the variables of its
namespace only. -/
def lookupReference (scopes : List Scope) : Reference → Option Variable
  | .unqualified key => lastVariable scopes fun item => item.name.key = key
  | .qualified name => lastVariable scopes fun item => item.name = name

end GoEtl.Variables
