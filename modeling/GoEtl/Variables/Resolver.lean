import GoEtl.Library.TwoRuns
import GoEtl.Variables.Value

/-!
# The resolver

`internal/variable/resolver.go` and `literal.go`: a reference is looked up in the scopes, and the expression of the
variable found is resolved, following the references in it. The variables on the way are remembered, so that a cycle is
an error, and so is a chain of more than `MaxDepth` of them.

The code counts the depth up to the limit; here what is left of it is counted down, and the expression of a variable is
resolved with a function that resolves the references in it (`resolveExpression`), which the resolver then supplies at
the next depth (`resolveVariable`).
-/

namespace GoEtl.Variables

open Library Text

/-- `ResolverConfig`, with the functions of `time`. -/
structure ResolverConfig where
  maxDepth : ℤ
  controllerEnvironmentLookup : Option (Chars → Option Chars)
  functionRegistry : List ListFunction
  times : Times

/-- The depth that is left at the root. -/
def ResolverConfig.depth (config : ResolverConfig) : ℕ := if config.maxDepth = 0 then 10 else config.maxDepth.toNat

/-- `resolutionContext`, without the root. -/
structure ResolutionContext where
  path : Chars
  chain : List Name

/-- The errors of the resolver. -/
inductive Cause where
  /-- A variable is on the way to itself. -/
  | cycle (names : List Name)
  /-- The depth limit is reached. -/
  | depth (name : Name)
  | other (text : String)
  deriving DecidableEq, Repr

/-- The text of a cycle. -/
def cycleText (names : List Name) : String := " -> ".intercalate (names.map fun name => String.ofList name.string)

/-- The text of an error. -/
def Cause.text : Cause → String
  | .cycle names => "reference cycle: " ++ cycleText names
  | .depth name => "maximum variable resolution depth exceeded at " ++ String.ofList name.string
  | .other content => content

/-- `locatedError`. -/
structure LocatedError where
  path : Chars
  cause : Cause
  deriving DecidableEq, Repr

/-- A function that resolves references. -/
abbrev Refer := Reference → ResolutionContext → Except LocatedError ResolvedValue

/-- `appendJSONPointer`. -/
def appendJsonPointer (path segment : Chars) : Chars :=
  let escaped := segment.flatMap fun c => if c = '~' then ['~', '0'] else if c = '/' then ['~', '1'] else [c]
  if path = ['/'] then '/' :: escaped else path ++ '/' :: escaped

/-- Locate an error. -/
def locate {α : Type} (context : ResolutionContext) (result : Except String α) : Except LocatedError α :=
  result.mapError fun text => ⟨context.path, .other text⟩

/-- `parseLiteralExpression`, of the scalars. -/
def parseLiteralExpression (times : Times) : Kind → Expression → Except String ResolvedValue
  | .string, .text text => .ok (.scalar .string (.text text) .plain)
  | .path, .text text => .ok (.scalar .path (.text text) .plain)
  | .datetime, .text text =>
    if times.valid text then .ok (.scalar .datetime (.time text) .plain) else .error "parse datetime expression"
  | .int, .int value => .ok (.scalar .int (.int value) .plain)
  | .int, .number text =>
    match atoi text with
    | some value => .ok (.scalar .int (.int value) .plain)
    | none => .error "parse int expression"
  | .bool, .bool value => .ok (.scalar .bool (.bool value) .plain)
  | .int, _ => .error "int expression must be an integer"
  | .bool, _ => .error "bool expression must be a boolean"
  | kind, _ => .error (expressionMismatch kind)

/-- `interpolationText`. -/
def interpolationText (times : Times) : ResolvedValue → Except String Chars
  | .scalar .string (.text text) _ => .ok text
  | .scalar .path (.text text) _ => .ok text
  | .scalar .int (.int value) _ => .ok (itoa value)
  | .scalar .bool (.bool value) _ => .ok (chars (if value then "true" else "false"))
  | .scalar .datetime (.time text) _ => .ok (times.format text)
  | .scalar kind _ _ => .error ("invalid " ++ kind.text ++ " value")
  | value => .error ("value has type " ++ value.kind.text ++ ", want scalar")

/-! ### Expressions -/

section

variable (config : ResolverConfig) (refer : Refer)

/-- A reference with its accessor, as a text has them. -/
def resolveReferenceText (context : ResolutionContext) (text : Chars) : Except LocatedError ResolvedValue := do
  let (reference, accessor) ← locate context (parseReferenceExpression text)
  let resolved ← refer reference context
  locate context (applyOptionalAccessor resolved accessor)

/-- What `interpolate` has collected. -/
structure Interpolated where
  text : Chars
  sensitive : Bool
  (label provenance : Chars)

/-- The mark of the first sensitive value is kept. -/
def Interpolated.see (done : Interpolated) (mark : Mark) : Interpolated :=
  if mark.sensitive && !done.sensitive then ⟨done.text, true, mark.redactionLabel, mark.provenance⟩ else done

/-- The loop of `interpolate`. -/
def interpolateTokens (context : ResolutionContext) (done : Interpolated) : List Token → Except LocatedError Interpolated
  | [] => .ok done
  | token :: tokens => do
    let resolved ← resolveReferenceText refer context token.reference
    let seen := done.see resolved.mark
    let text ← locate context (interpolationText config.times resolved)
    interpolateTokens context { seen with text := seen.text ++ unescape token.before ++ text } tokens

/-- `interpolate`. -/
def interpolate (context : ResolutionContext) (expression : Chars) : Except LocatedError Interpolated := do
  let (tokens, last) ← locate context (parseInterpolationTokens expression)
  let done ← interpolateTokens config refer context ⟨[], false, [], []⟩ tokens
  pure { done with text := done.text ++ unescape last }

/-- The value of an interpolated text. -/
def Interpolated.value (kind : Kind) (done : Interpolated) : ResolvedValue :=
  let mark := Mark.plain.merge done.sensitive done.provenance
  .scalar kind (.text done.text) { mark with
    redactionLabel := if mark.redactionLabel = [] then done.label else mark.redactionLabel }

/-- `resolveExpression`, of a text. -/
def resolveText (context : ResolutionContext) (kind : Kind) (text : Chars) : Except LocatedError ResolvedValue :=
  match wholeValueReferenceExpression text with
  | some reference => do
    let resolved ← resolveReferenceText refer context reference
    if resolved.kind = kind then pure resolved
    else .error ⟨context.path, .other ("reference has type " ++ resolved.kind.text ++ ", want " ++ kind.text)⟩
  | none =>
    if kind = .string ∨ kind = .path then do
      let done ← interpolate config refer context text
      pure (done.value kind)
    else locate context (parseLiteralExpression config.times kind (.text (unescape text)))

/-- The arguments of `resolveFunctionCall`. -/
def resolveArguments (context : ResolutionContext) : ℕ → List FunctionArgumentReference →
    Except LocatedError (List ResolvedValue)
  | _, [] => .ok []
  | index, argument :: rest => do
    let path := appendJsonPointer (appendJsonPointer context.path (chars "arguments")) (itoa index)
    let resolved ← refer argument.reference { context with path }
    let value ← locate context (applyOptionalAccessor resolved argument.accessor)
    let values ← resolveArguments context (index + 1) rest
    pure (value :: values)

/-- The mark that a function's result gets from its arguments. -/
def mergeArguments (arguments : List ResolvedValue) (result : ResolvedValue) : ResolvedValue :=
  let seen := aggregate (arguments.map (·.mark))
  if seen.sensitive then
    let merged := result.merge true seen.provenance
    if seen.redactionLabel = [] then merged
    else merged.withMark { merged.mark with redactionLabel := seen.redactionLabel }
  else result

/-- `resolveFunctionCall`. -/
def resolveFunctionCall (context : ResolutionContext) (kind : Kind) (call : FunctionCallExpression) :
    Except LocatedError ResolvedValue :=
  if call.resultType ≠ kind then
    .error ⟨context.path, .other ("function result type " ++ call.resultType.text ++ " does not match expression type " ++ kind.text)⟩
  else
    match config.functionRegistry.find? (·.functionName = call.name) with
    | none => .error ⟨context.path, .other ("unknown function: " ++ String.ofList call.name.string)⟩
    | some function => do
      let arguments ← resolveArguments refer context 0 call.arguments
      let result ← locate context ((function.evaluate arguments).mapError
        (("evaluate function " ++ String.ofList call.name.string ++ ": ") ++ ·))
      if result.kind = kind then pure (mergeArguments arguments result)
      else .error ⟨context.path, .other ("function " ++ String.ofList call.name.string ++ " returned type " ++
        result.kind.text ++ ", want " ++ kind.text)⟩

mutual

/-- `resolveExpression`. -/
def resolveExpression (context : ResolutionContext) : Kind → Expression → Except LocatedError ResolvedValue
  | kind, .call call => resolveFunctionCall config refer context kind call
  | kind, .text text => resolveText config refer context kind text
  | .object, .object fields => do
    let resolved ← resolveFields context fields
    pure (resolvedObject resolved)
  | .list, .list items => do
    let resolved ← resolveItems context 0 items
    pure (resolvedList resolved)
  | kind, expression => locate context (parseLiteralExpression config.times kind expression)

/-- The fields of an object. -/
def resolveFields (context : ResolutionContext) :
    List (Chars × Kind × Expression) → Except LocatedError (List (Chars × ResolvedValue))
  | [] => .ok []
  | (name, kind, expression) :: fields => do
    let resolved ← resolveExpression { context with path := appendJsonPointer context.path name } kind expression
    let rest ← resolveFields context fields
    pure ((name, resolved) :: rest)

/-- The items of a list. -/
def resolveItems (context : ResolutionContext) : ℕ → List (Kind × Expression) → Except LocatedError (List ResolvedValue)
  | _, [] => .ok []
  | index, (kind, expression) :: items => do
    let resolved ← resolveExpression { context with path := appendJsonPointer context.path (itoa index) } kind expression
    let rest ← resolveItems context (index + 1) items
    pure (resolved :: rest)

end

end

/-- A text without placeholders is itself. -/
theorem interpolate_literal (config : ResolverConfig) {refer : Refer} {context : ResolutionContext} {text last : Chars}
    (htext : parseInterpolationTokens text = .ok ([], last)) :
    interpolate config refer context text = .ok ⟨unescape last, false, [], []⟩ := by
  unfold interpolate
  rw [htext]
  rfl

/-- An escaped text resolves to the text. -/
theorem resolveText_escape (config : ResolverConfig) (refer : Refer) (context : ResolutionContext) (text : Chars) :
    resolveText config refer context .string (escape text) = .ok (.scalar .string (.text text) .plain) := by
  have hwhole : wholeValueReferenceExpression (escape text) = none := by
    rw [wholeValueReferenceExpression, parseInterpolationTokens_escape]
    rfl
  simp only [resolveText, hwhole, true_or, if_true]
  rw [interpolate_literal config (parseInterpolationTokens_escape text), unescape_escape]
  rfl

/-! ### Variables -/

/-- `lookupControllerEnvironment`. -/
def lookupControllerEnvironment (config : ResolverConfig) (key : Chars) : Option Variable := do
  let lookup ← config.controllerEnvironmentLookup
  let value ← lookup key
  pure ⟨⟨.controllerEnvironment, key⟩, .string, .expression (.text value), false⟩

/-- `lookupVariable`. -/
def lookupVariable (config : ResolverConfig) (scopes : List Scope) (reference : Reference) : Option Variable :=
  match reference with
  | .qualified name =>
    if name.space = .controllerEnvironment then lookupControllerEnvironment config name.key
    else lookupReference scopes reference
  | .unqualified key =>
    match lookupReference scopes reference with
    | some item => some item
    | none => lookupControllerEnvironment config key

/-- `resolveVariable`, with what is left of the depth. -/
def resolveVariable (config : ResolverConfig) (scopes : List Scope) :
    ℕ → Variable → ResolutionContext → Except LocatedError ResolvedValue
  | left, item, context =>
    if context.chain.contains item.name then
      .error ⟨context.path, .cycle (context.chain.dropWhile (· ≠ item.name) ++ [item.name])⟩
    else
      match left with
      | 0 => .error ⟨context.path, .depth item.name⟩
      | left + 1 =>
        match item.definition with
        | .protectedRef ref => locate context (protectedReferenceValue item.kind ref)
        | .expression expression => do
          let value ← resolveExpression config
            (fun reference context =>
              match lookupVariable config scopes reference with
              | none => .error ⟨context.path, .other ("variable not found: " ++ String.ofList reference.string)⟩
              | some next => resolveVariable config scopes left next context)
            { context with chain := context.chain ++ [item.name] } item.kind expression
          pure (value.merge item.sensitive item.name.string)

/-- `resolveReference`. -/
def resolveReference (config : ResolverConfig) (scopes : List Scope) (left : ℕ) : Refer := fun reference context =>
  match lookupVariable config scopes reference with
  | none => .error ⟨context.path, .other ("variable not found: " ++ String.ofList reference.string)⟩
  | some next => resolveVariable config scopes left next context

/-- The definition of a variable that is not on the way already. -/
def resolveDefinition (config : ResolverConfig) (refer : Refer) (item : Variable) (context : ResolutionContext) :
    Except LocatedError ResolvedValue :=
  match item.definition with
  | .protectedRef ref => locate context (protectedReferenceValue item.kind ref)
  | .expression expression => do
    let value ← resolveExpression config refer { context with chain := context.chain ++ [item.name] } item.kind expression
    pure (value.merge item.sensitive item.name.string)

theorem resolveVariable_succ (config : ResolverConfig) (scopes : List Scope) (left : ℕ) (item : Variable)
    (context : ResolutionContext) :
    resolveVariable config scopes (left + 1) item context =
      if context.chain.contains item.name then
        .error ⟨context.path, .cycle (context.chain.dropWhile (· ≠ item.name) ++ [item.name])⟩
      else resolveDefinition config (resolveReference config scopes left) item context := by
  rw [resolveVariable]
  rfl

/-- A variable that is resolved is not on the way, there is depth left, and the references of its definition are
resolved with less. -/
theorem resolveVariable_ok {config : ResolverConfig} {scopes : List Scope} {left : ℕ} {item : Variable}
    {context : ResolutionContext} {value : ResolvedValue} :
    resolveVariable config scopes left item context = .ok value ↔
      context.chain.contains item.name = false ∧ ∃ less, left = less + 1 ∧
        resolveDefinition config (resolveReference config scopes less) item context = .ok value := by
  unfold resolveVariable
  by_cases hcycle : context.chain.contains item.name = true
  · rw [if_pos hcycle]
    constructor
    · intro h
      cases h
    · intro ⟨hfree, _⟩
      rw [hfree] at hcycle
      cases hcycle
  · rw [if_neg hcycle]
    cases left with
    | zero => simp
    | succ less => exact ⟨fun h => ⟨by simpa using hcycle, less, rfl, h⟩, fun ⟨_, _, hless, h⟩ => by cases hless; exact h⟩

/-- `Resolve`. The error names the variable and the place in its expression. -/
def resolve (config : ResolverConfig) (scopes : List Scope) (reference : Reference) : Except String ResolvedValue :=
  match lookupVariable config scopes reference with
  | none =>
    .error ("resolve " ++ String.ofList reference.string ++ " at /: variable not found: " ++ String.ofList reference.string)
  | some item =>
    (resolveVariable config scopes config.depth item ⟨['/'], []⟩).mapError fun error =>
      "resolve " ++ String.ofList item.name.string ++ " at " ++ String.ofList error.path ++ ": " ++ error.cause.text

/-- A reference followed by accessors. -/
def resolveWithAccessor (config : ResolverConfig) (scopes : List Scope) (reference : Reference) (accessor : Chars) :
    Except String ResolvedValue := do
  let value ← resolve config scopes reference
  applyOptionalAccessor value accessor

/-! ### Two sets of scopes -/

/-- Sets of scopes whose variables are related one by one. -/
def Scopes (r : Variable → Variable → Prop) : List Scope → List Scope → Prop := List.Forall₂ (List.Forall₂ r)

section

variable {r : Variable → Variable → Prop} (hname : ∀ item item', r item item' → item.name = item'.name)
  {scopes scopes' : List Scope}

include hname

theorem find?_rel {scope scope' : Scope} (h : List.Forall₂ r scope scope') {found : Variable → Bool}
    (hfound : ∀ item item', item.name = item'.name → found item = found item') :
    Option.Rel r (scope.find? found) (scope'.find? found) := by
  induction h with
  | nil => exact .none
  | @cons item item' _ _ hitem _ ih =>
    rw [List.find?_cons, List.find?_cons, ← hfound item item' (hname item item' hitem)]
    cases found item with
    | true => exact .some hitem
    | false => exact ih

theorem lastVariable_rel (h : Scopes r scopes scopes') {found : Variable → Bool}
    (hfound : ∀ item item', item.name = item'.name → found item = found item') :
    Option.Rel r (lastVariable scopes found) (lastVariable scopes' found) :=
  findSome?_rel (List.forall₂_reverse_iff.2 h) fun _ _ hscope => find?_rel hname hscope hfound

theorem lookupReference_rel (h : Scopes r scopes scopes') (reference : Reference) :
    Option.Rel r (lookupReference scopes reference) (lookupReference scopes' reference) := by
  cases reference with
  | unqualified key => exact lastVariable_rel hname h fun _ _ hkey => by rw [hkey]
  | qualified name => exact lastVariable_rel hname h fun _ _ hkey => by rw [hkey]

/-- **A reference is found in both sets or in neither.** -/
theorem lookupVariable_rel (hrefl : ∀ item, r item item) (config : ResolverConfig) (h : Scopes r scopes scopes')
    (reference : Reference) :
    Option.Rel r (lookupVariable config scopes reference) (lookupVariable config scopes' reference) := by
  have henvironment : ∀ key, Option.Rel r (lookupControllerEnvironment config key) (lookupControllerEnvironment config key) := by
    intro key
    cases lookupControllerEnvironment config key with
    | none => exact .none
    | some item => exact .some (hrefl item)
  have hrel := lookupReference_rel hname h reference
  unfold lookupVariable
  cases reference with
  | qualified name =>
    by_cases hspace : name.space = .controllerEnvironment
    · simp only [if_pos hspace]
      exact henvironment name.key
    · simp only [if_neg hspace]
      exact hrel
  | unqualified key =>
    generalize lookupReference scopes (.unqualified key) = x at hrel ⊢
    generalize lookupReference scopes' (.unqualified key) = y at hrel ⊢
    cases hrel with
    | some hitem => exact .some hitem
    | none => exact henvironment key

end

end GoEtl.Variables
