import GoEtl.Text.JsonValue
import GoEtl.Variables.Expression

/-!
# Resolved values

`internal/variable/variable.go`, `sensitivity.go`, `accessor.go` and the list functions: a resolved value is a scalar, an
object or a list, and carries a mark that says whether it is sensitive. Its printed form and its JSON form show the
scalars that are marked by their label only.

A container is marked when a member of it is, but marking a container does not mark the members: they are shown.
-/

namespace GoEtl.Variables

open Library Text

/-- What a resolved value carries beside its contents. -/
structure Mark where
  sensitive : Bool
  (redactionLabel provenance : Chars)
  protectedRef : Option ProtectedRef
  deriving DecidableEq, Repr

/-- The mark of a value that is not sensitive. -/
def Mark.plain : Mark := ⟨false, [], [], none⟩

/-- `ResolvedValue.Value`. -/
inductive Scalar where
  /-- The value of a protected reference is not here. -/
  | absent
  | text (text : Chars)
  | int (value : ℤ)
  | bool (value : Bool)
  /-- A time, by the text that it was read from. -/
  | time (text : Chars)
  deriving DecidableEq, Repr

/-- `ResolvedValue`. -/
inductive ResolvedValue where
  | scalar (kind : Kind) (value : Scalar) (mark : Mark)
  | object (fields : List (Chars × ResolvedValue)) (mark : Mark)
  | list (items : List ResolvedValue) (mark : Mark)

namespace ResolvedValue

/-- `ResolvedValue.Type`. -/
def kind : ResolvedValue → Kind
  | .scalar kind _ _ => kind
  | .object _ _ => .object
  | .list _ _ => .list

/-- The value's own mark. -/
def mark : ResolvedValue → Mark
  | .scalar _ _ mark => mark
  | .object _ mark => mark
  | .list _ mark => mark

/-- The value with another mark. -/
def withMark (mark : Mark) : ResolvedValue → ResolvedValue
  | .scalar kind value _ => .scalar kind value mark
  | .object fields _ => .object fields mark
  | .list items _ => .list items mark

end ResolvedValue

/-! ### Sensitivity -/

/-- `isSensitive`. -/
def Mark.isSensitive (mark : Mark) : Bool := mark.sensitive || mark.protectedRef.isSome

/-- `redactedLabel`. -/
def redactedLabel : Chars := chars "[REDACTED]"

/-- `ResolvedValue.redactionLabel`. -/
def Mark.label (mark : Mark) : Chars :=
  if mark.redactionLabel ≠ [] then mark.redactionLabel
  else
    match mark.protectedRef with
    | some ref => ref.redactionLabelValue
    | none => redactedLabel

/-- `ResolvedValue.resolvedProvenance`. -/
def Mark.source (mark : Mark) : Chars :=
  if mark.provenance ≠ [] then mark.provenance
  else
    match mark.protectedRef with
    | some ref => ref.provenance
    | none => []

/-- `redactionLabelForProvenance`. -/
def redactionLabelForProvenance (provenance : Chars) : Chars :=
  if provenance = [] then redactedLabel else chars "[REDACTED:" ++ provenance ++ [']']

/-- `mergeSensitivity`. -/
def Mark.merge (mark : Mark) (sensitive : Bool) (provenance : Chars) : Mark :=
  match mark.protectedRef with
  | some ref => {
      sensitive := true
      redactionLabel := if mark.redactionLabel = [] then ref.redactionLabelValue else mark.redactionLabel
      provenance := if mark.provenance = [] then ref.provenance else mark.provenance
      protectedRef := some ref }
  | none =>
    if !sensitive then mark
    else {
      sensitive := true
      redactionLabel :=
        if mark.redactionLabel = [] then redactionLabelForProvenance provenance else mark.redactionLabel
      provenance := if mark.provenance = [] then provenance else mark.provenance
      protectedRef := none }

/-- `mergeSensitivity`, of a value. -/
def ResolvedValue.merge (value : ResolvedValue) (sensitive : Bool) (provenance : Chars) : ResolvedValue :=
  value.withMark (value.mark.merge sensitive provenance)

/-- `aggregateSensitivity`: the mark of the first sensitive member. -/
def aggregate : List Mark → Mark
  | [] => .plain
  | mark :: marks => if mark.isSensitive then ⟨true, mark.label, mark.source, none⟩ else aggregate marks

/-- `ResolvedObject`. -/
def resolvedObject (fields : List (Chars × ResolvedValue)) : ResolvedValue :=
  .object fields (aggregate (fields.map (·.2.mark)))

/-- `ResolvedList`. -/
def resolvedList (items : List ResolvedValue) : ResolvedValue := .list items (aggregate (items.map (·.mark)))

/-- `protectedReferenceValue`. -/
def protectedReferenceValue (kind : Kind) (ref : ProtectedRef) : Except String ResolvedValue := do
  ref.validate
  let mark : Mark := ⟨true, ref.redactionLabelValue, ref.provenance, some ref.normalize⟩
  match kind with
  | .object => pure (.object [] mark)
  | .list => pure (.list [] mark)
  | kind => pure (.scalar kind .absent mark)

/-! ### The two forms -/

/-- A member of an encoded structure that is left out when it is empty. -/
def optional (name : String) (value : Option JsonValue) : List (Chars × JsonValue) :=
  match value with
  | some value => [(chars name, value)]
  | none => []

/-- A text that is left out when it is empty. -/
def optionalText (name : String) (text : Chars) : List (Chars × JsonValue) :=
  optional name (if text = [] then none else some (.string text))

/-- A flag that is left out when it is false. -/
def optionalFlag (name : String) (flag : Bool) : List (Chars × JsonValue) :=
  optional name (if flag then some (.bool true) else none)

/-- `ProtectedRef.MarshalJSON`, of a valid reference. -/
def ProtectedRef.json (ref : ProtectedRef) : JsonValue :=
  .object ([(chars "provider", .string ref.provider.text), (chars "key", .string ref.key)] ++
    optionalText "redaction_label" ref.normalize.redactionLabel)

/-- The JSON of a scalar. -/
def Scalar.json (times : Times) : Scalar → Option JsonValue
  | .absent => none
  | .text s => some (.string s)
  | .int n => some (.number (itoa n))
  | .bool b => some (.bool b)
  | .time s => some (.string (times.marshal s))

/-- The members of `resolvedValueJSON` before the contents. -/
def encodedMark (kind : Kind) (mark : Mark) : List (Chars × JsonValue) :=
  [(chars "type", .string (chars kind.text))] ++ optionalFlag "sensitive" mark.isSensitive ++
    (if mark.isSensitive then optionalText "redaction_label" mark.label ++ optionalText "provenance" mark.source else []) ++
    optional "protected_ref" (mark.protectedRef.map ProtectedRef.json)

/-- The scalar that is shown. -/
def shownScalar (times : Times) (value : Scalar) (mark : Mark) : Option JsonValue :=
  if mark.protectedRef.isSome then none
  else if mark.isSensitive then some (.string mark.label)
  else value.json times

mutual

/-- `safeJSON`, which is the JSON form. -/
def safeJson (times : Times) : ResolvedValue → JsonValue
  | .scalar kind value mark => .object (encodedMark kind mark ++ optional "value" (shownScalar times value mark))
  | .object fields mark =>
    .object (encodedMark .object mark ++
      optional "object" (if fields.isEmpty then none else some (.object (JsonValue.sortFields (safeJsonFields times fields)))))
  | .list items mark =>
    .object (encodedMark .list mark ++
      optional "list" (if items.isEmpty then none else some (.array (safeJsonItems times items))))

/-- The fields of an object. -/
def safeJsonFields (times : Times) : List (Chars × ResolvedValue) → List (Chars × JsonValue)
  | [] => []
  | (name, value) :: fields => (name, safeJson times value) :: safeJsonFields times fields

/-- The items of a list. -/
def safeJsonItems (times : Times) : List ResolvedValue → List JsonValue
  | [] => []
  | value :: items => safeJson times value :: safeJsonItems times items

end

/-- `fmt.Sprint` of a scalar. -/
def Scalar.print (times : Times) : Scalar → Chars
  | .absent => chars "<nil>"
  | .text s => s
  | .int n => itoa n
  | .bool b => chars (if b then "true" else "false")
  | .time s => times.print s

/-- `ResolvedValue.String`, the printed form. -/
def ResolvedValue.string (times : Times) (value : ResolvedValue) : Chars :=
  match value with
  | .scalar _ content mark => if mark.isSensitive then mark.label else content.print times
  | container => (safeJson times container).render

/-! ### Accessors -/

/-- `ApplyFieldAccessor`. -/
def applyFieldAccessor (value : ResolvedValue) (accessor : Chars) : Except String ResolvedValue := do
  let field ← parseFieldAccessor accessor
  match value with
  | .object fields _ =>
    match fields.lookup field with
    | some found => .ok found
    | none => .error ("object field not found: " ++ String.ofList field)
  | value => .error ("field accessor " ++ String.ofList accessor ++ " requires object, got " ++ value.kind.text)

/-- `ApplyIndexAccessor`. -/
def applyIndexAccessor (value : ResolvedValue) (accessor : Chars) : Except String ResolvedValue := do
  let index ← parseIndexAccessor accessor
  match value with
  | .list items _ =>
    match if index < 0 then none else items[index.toNat]? with
    | some found => .ok found
    | none => .error ("list index out of range: " ++ toString index)
  | value => .error ("index accessor " ++ String.ofList accessor ++ " requires list, got " ++ value.kind.text)

/-- The loop of `ApplyAccessor`. -/
def applyParts (value : ResolvedValue) : List Chars → Except String ResolvedValue
  | [] => .ok value
  | part :: parts => do
    let next ← if part.head? = some '.' then applyFieldAccessor value part else applyIndexAccessor value part
    applyParts next parts

/-- `ApplyAccessor`. -/
def applyAccessor (value : ResolvedValue) (accessor : Chars) : Except String ResolvedValue := do
  let parts ← parseScalarAccessors accessor
  applyParts value parts

/-- Apply an accessor where there is one. -/
def applyOptionalAccessor (value : ResolvedValue) (accessor : Chars) : Except String ResolvedValue :=
  if accessor = [] then .ok value else applyAccessor value accessor

/-- **The accessor of an item gives the item.** -/
theorem applyOptionalAccessor_index {items : List ResolvedValue} {mark : Mark} {index : ℕ} {value : ResolvedValue}
    (hindex : IsInt index) (hvalue : items[index]? = some value) :
    applyOptionalAccessor (.list items mark) (indexAccessor index) = .ok value := by
  have hitem : applyIndexAccessor (.list items mark) (indexAccessor index) = .ok value := by
    refine except_bind_ok.2 ⟨index, parseIndexAccessor_index hindex, ?_⟩
    simp only [Int.toNat_natCast, hvalue, if_neg (Int.not_lt.2 (Int.natCast_nonneg index))]
  have hparts : applyParts (.list items mark) [indexAccessor index] = .ok value := by
    rw [applyParts, if_neg (by simp [indexAccessor]), hitem]
    rfl
  rw [applyOptionalAccessor, if_neg (by simp [indexAccessor])]
  exact except_bind_ok.2 ⟨_, parseScalarAccessors_index index, hparts⟩

/-! ### Functions -/

/-- The functions of `DefaultFunctionRegistry`. -/
inductive ListFunction where
  | crossproduct
  | zip
  | flatten
  | length
  deriving DecidableEq, Repr

/-- `ExpressionFunction.Name`. -/
def ListFunction.functionName : ListFunction → FunctionName
  | .crossproduct => ⟨chars "list", chars "crossproduct"⟩
  | .zip => ⟨chars "list", chars "zip"⟩
  | .flatten => ⟨chars "list", chars "flatten"⟩
  | .length => ⟨chars "list", chars "length"⟩

/-- `DefaultFunctionRegistry`. -/
def defaultFunctionRegistry : List ListFunction := [.crossproduct, .zip, .flatten, .length]

/-- The items of an argument that must be a list. -/
def listArgument (index : ℕ) : ResolvedValue → Except String (List ResolvedValue)
  | .list items _ => .ok items
  | .scalar kind _ _ => .error ("argument " ++ toString index ++ " has type " ++ kind.text ++ ", want list")
  | .object _ _ => .error ("argument " ++ toString index ++ " has type object, want list")

/-- The loop of `list.flatten`. -/
def flattenItems : ℕ → List ResolvedValue → Except String (List ResolvedValue)
  | _, [] => .ok []
  | index, item :: rest =>
    match item with
    | .list items _ => do
      let flattened ← flattenItems (index + 1) rest
      pure (items ++ flattened)
    | item => .error ("argument 0[" ++ toString index ++ "] has type " ++ item.kind.text ++ ", want list")

/-- The error of a call with another number of arguments. -/
def wrongArity (arguments : List ResolvedValue) (want : ℕ) : String :=
  "arity = " ++ toString arguments.length ++ ", want " ++ toString want

/-- `ExpressionFunction.Evaluate`. -/
def ListFunction.evaluate : ListFunction → List ResolvedValue → Except String ResolvedValue
  | .crossproduct, [first, second] => do
    let left ← listArgument 0 first
    let right ← listArgument 1 second
    pure (resolvedList (left.flatMap fun a => right.map fun b => resolvedList [a, b]))
  | .crossproduct, arguments => .error (wrongArity arguments 2)
  | .zip, [first, second] => do
    let left ← listArgument 0 first
    let right ← listArgument 1 second
    if left.length ≠ right.length then
      .error ("list length mismatch: left=" ++ toString left.length ++ " right=" ++ toString right.length)
    else pure (resolvedList (List.zipWith (fun a b => resolvedList [a, b]) left right))
  | .zip, arguments => .error (wrongArity arguments 2)
  | .flatten, [argument] => do
    let items ← listArgument 0 argument
    let flattened ← flattenItems 0 items
    pure (resolvedList flattened)
  | .flatten, arguments => .error (wrongArity arguments 1)
  | .length, [argument] => do
    let items ← listArgument 0 argument
    pure (.scalar .int (.int items.length) .plain)
  | .length, arguments => .error (wrongArity arguments 1)

end GoEtl.Variables
