import GoEtl.Library.Transaction
import GoEtl.Text.Chars

/-!
# References to variables

`internal/variable/namespace.go`, `name.go`, `reference.go`, `accessor.go` and the scanner of `expression.go`: a text is
scanned for placeholders, a placeholder holds a reference, and a reference is a key, with or without a namespace,
followed by accessors of fields and list items.

The scanner works through the text once, from left to right (`scan`): a text that was escaped has no placeholders, and
comes out as it was (`scan_escape`).
-/

namespace GoEtl.Variables

open Text

/-! ### Names -/

/-- `Namespace`, the valid ones. -/
inductive Namespace where
  | globalConfig
  | clientEnvironment
  | controllerEnvironment
  | workerEnvironment
  | clientConfig
  | controllerConfig
  | workerConfig
  | projectConfig
  | workflow
  | override
  | step
  | fanOut
  | asset
  | workItem
  | data
  | runtime
  | global
  | backend
  | project
  deriving DecidableEq, Repr

/-- The texts of the namespaces. -/
def Namespace.text : Namespace → Chars
  | .globalConfig => chars "global_config"
  | .clientEnvironment => chars "client_env"
  | .controllerEnvironment => chars "controller_env"
  | .workerEnvironment => chars "worker_env"
  | .clientConfig => chars "client_config"
  | .controllerConfig => chars "controller_config"
  | .workerConfig => chars "worker_config"
  | .projectConfig => chars "project_config"
  | .workflow => chars "workflow"
  | .override => chars "override"
  | .step => chars "step"
  | .fanOut => chars "fanout"
  | .asset => chars "asset"
  | .workItem => chars "work_item"
  | .data => chars "data"
  | .runtime => chars "runtime"
  | .global => chars "global"
  | .backend => chars "backend"
  | .project => chars "project"

/-- The namespaces. -/
def Namespace.all : List Namespace :=
  [.globalConfig, .clientEnvironment, .controllerEnvironment, .workerEnvironment, .clientConfig, .controllerConfig,
    .workerConfig, .projectConfig, .workflow, .override, .step, .fanOut, .asset, .workItem, .data, .runtime, .global,
    .backend, .project]

/-- The namespace with the text, if `Namespace.Valid` says that there is one. -/
def Namespace.parse (text : Chars) : Option Namespace := Namespace.all.find? fun space => space.text = text

/-- `Name`. -/
structure Name where
  space : Namespace
  key : Chars
  deriving DecidableEq, Repr

/-- `Name.String`. -/
def Name.string (name : Name) : Chars := name.space.text ++ '.' :: name.key

/-- `Reference`. -/
inductive Reference where
  | unqualified (key : Chars)
  | qualified (name : Name)
  deriving DecidableEq, Repr

/-- `Reference.String`. -/
def Reference.string : Reference → Chars
  | .unqualified key => key
  | .qualified name => name.string

/-- `ParseReference`. -/
def parseReference (text : Chars) : Except String Reference :=
  if text = [] then .error "variable reference is required"
  else
    match text.splitOn '.' with
    | [key] => .ok (.unqualified key)
    | [first, key] =>
      match Namespace.parse first with
      | none => .error ("unsupported namespace: " ++ String.ofList first)
      | some space => if key = [] then .error "variable key is required" else .ok (.qualified ⟨space, key⟩)
    | _ => .error ("variable reference must be key or namespace.key: " ++ String.ofList text)

/-- Split before the first dot or bracket. -/
def splitAtAccessor (text : Chars) : Chars × Chars :=
  (text.takeWhile fun c => !(c = '.' || c = '['), text.dropWhile fun c => !(c = '.' || c = '['))

/-- `splitReferenceAccessor`. -/
def splitReferenceAccessor (text : Chars) : Chars × Chars :=
  match text.splitOn '.' with
  | first :: second :: _ =>
    if (Namespace.parse first).isSome then
      let reference := first ++ '.' :: second.takeWhile (· ≠ '[')
      (reference, text.drop reference.length)
    else splitAtAccessor text
  | _ => splitAtAccessor text

/-- `parseReferenceExpression`. -/
def parseReferenceExpression (text : Chars) : Except String (Reference × Chars) := do
  let reference ← parseReference (splitReferenceAccessor text).1
  pure (reference, (splitReferenceAccessor text).2)

/-! ### Accessors -/

/-- The loop of `parseScalarAccessors`, inside a part or before the next one. -/
def accessorParts : Option Chars → Chars → Except String (List Chars)
  | none, [] => .ok []
  | none, c :: rest =>
    if c = '.' ∨ c = '[' then accessorParts (some [c]) rest else .error "accessor must start with . or ["
  | some part, [] => if part.head? = some '.' then .ok [part] else .error "index accessor must use [index]"
  | some part, c :: rest =>
    if part.head? = some '.' then
      if c = '.' ∨ c = '[' then do
        let parts ← accessorParts (some [c]) rest
        pure (part :: parts)
      else accessorParts (some (part ++ [c])) rest
    else if c = ']' then
      if part = ['[', '*'] then .error "fan-out accessor is not scalar: [*]"
      else do
        let parts ← accessorParts none rest
        pure ((part ++ [c]) :: parts)
    else accessorParts (some (part ++ [c])) rest

/-- `parseScalarAccessors`. -/
def parseScalarAccessors (accessor : Chars) : Except String (List Chars) :=
  if accessor = [] then .error "accessor is required" else accessorParts none accessor

/-- `parseFieldAccessor`. -/
def parseFieldAccessor (accessor : Chars) : Except String Chars :=
  match accessor with
  | '.' :: field =>
    if field = [] then .error "field accessor name is required"
    else if hasAny ['.', '[', ']'] field then
      .error ("field accessor supports one field only: " ++ String.ofList accessor)
    else .ok field
  | _ => .error "field accessor must start with ."

/-- `parseIndexAccessor`. -/
def parseIndexAccessor (accessor : Chars) : Except String ℤ :=
  if accessor.head? ≠ some '[' ∨ accessor.getLast? ≠ some ']' then .error "index accessor must use [index]"
  else if accessor.tail.dropLast = [] then .error "index accessor value is required"
  else
    match atoi accessor.tail.dropLast with
    | none => .error ("parse index accessor " ++ String.ofList accessor)
    | some index => .ok index

/-- The accessor of an item. -/
def indexAccessor (index : ℕ) : Chars := '[' :: (itoa index ++ [']'])

theorem accessorParts_digits {part digits : Chars} (hpart : part.head? = some '[')
    (hdigits : ∀ c ∈ digits, c.isDigit = true) (hstar : part ++ digits ≠ ['[', '*']) :
    accessorParts (some part) (digits ++ [']']) = .ok [part ++ digits ++ [']']] := by
  induction digits generalizing part with
  | nil =>
    rw [List.append_nil] at hstar
    simp [accessorParts, hpart, hstar]
  | cons c digits ih =>
    have hc : c ≠ ']' := by
      rintro rfl
      simpa using hdigits ']' (List.mem_cons_self ..)
    have hnext : accessorParts (some part) (c :: digits ++ [']']) = accessorParts (some (part ++ [c])) (digits ++ [']']) := by
      simp [accessorParts, hpart, hc]
    rw [hnext, ih (by simp [List.head?_append, hpart]) (fun d hd => hdigits d (List.mem_cons_of_mem _ hd))
      (by simpa using hstar)]
    simp

theorem itoa_digits (index : ℕ) : ∀ c ∈ itoa index, c.isDigit = true :=
  fun _ hc => Nat.isDigit_of_mem_toDigits (by decide) (by decide) hc

/-- An index is one accessor. -/
theorem parseScalarAccessors_index (index : ℕ) : parseScalarAccessors (indexAccessor index) = .ok [indexAccessor index] := by
  have hstar : ['['] ++ itoa index ≠ ['[', '*'] := by
    intro h
    have hmem : '*' ∈ itoa index := by
      rw [List.cons_append, List.nil_append, List.cons.injEq] at h
      simp [h.2]
    simpa using itoa_digits index '*' hmem
  have hparts := accessorParts_digits rfl (itoa_digits index) hstar
  simpa [parseScalarAccessors, indexAccessor, accessorParts] using hparts

/-- **The accessor of an item is read as its index.** -/
theorem parseIndexAccessor_index {index : ℕ} (h : IsInt index) : parseIndexAccessor (indexAccessor index) = .ok index := by
  have hnonempty : itoa index ≠ [] := Nat.toDigits_ne_nil
  have hlast : (indexAccessor index).getLast? = some ']' := by
    rw [indexAccessor, ← List.cons_append, List.getLast?_concat]
  have hinner : (indexAccessor index).tail.dropLast = itoa index := by
    rw [indexAccessor, List.tail_cons, List.dropLast_concat]
  rw [parseIndexAccessor, hlast, hinner, atoi_itoa h]
  simp [indexAccessor, hnonempty]

/-- The check of one part in `validateReferenceExpression`. -/
def validateAccessorPart (part : Chars) : Except String Unit :=
  if part.head? = some '.' then do
    let _ ← parseFieldAccessor part
    pure ()
  else do
    let _ ← parseIndexAccessor part
    pure ()

/-- `validateReferenceExpression`. -/
def validateReferenceExpression (text : Chars) : Except String Unit :=
  if hasPart opening text || hasAny ['\x7b', '\x7d'] text then .error "nested interpolation token is not supported"
  else do
    let (_, accessor) ← parseReferenceExpression text
    if accessor = [] then pure ()
    else do
      let parts ← parseScalarAccessors accessor
      parts.forM validateAccessorPart

/-! ### Placeholders -/

/-- A placeholder: the text since the one before it, and its trimmed reference. -/
structure Token where
  (before reference : Chars)
  deriving DecidableEq, Repr

/-- Where the scanner is: after the text since the last placeholder, or inside one. -/
inductive Scanning where
  | outside (before : Chars)
  | inside (before reference : Chars)

/-- The scanner of placeholders: it returns them and the text after the last one. The first argument is the error of a
placeholder that does not end, the second the check of a reference. -/
def scan (unterminated : String) (check : Chars → Except String Unit) :
    Scanning → Chars → Except String (List Token × Chars)
  | .outside before, '\\' :: '$' :: '\x7b' :: rest => scan unterminated check (.outside (before ++ ['\\', '$', '\x7b'])) rest
  | .outside before, '$' :: '\x7b' :: rest => scan unterminated check (.inside before []) rest
  | .outside before, c :: rest => scan unterminated check (.outside (before ++ [c])) rest
  | .outside before, [] => .ok ([], before)
  | .inside before reference, c :: rest =>
    if c = '\x7d' then do
      check (trim reference)
      let (tokens, last) ← scan unterminated check (.outside []) rest
      pure (⟨before, trim reference⟩ :: tokens, last)
    else scan unterminated check (.inside before (reference ++ [c])) rest
  | .inside _ _, [] => .error unterminated

/-- `parseInterpolationTokens`. -/
def parseInterpolationTokens (text : Chars) : Except String (List Token × Chars) :=
  scan "unterminated interpolation token" validateReferenceExpression (.outside []) text

/-- The reference of a text that is one placeholder and nothing else. -/
def wholeReference : List Token × Chars → Option Chars
  | ([token], []) => if token.before = [] then some token.reference else none
  | _ => none

/-- `wholeValueReferenceExpression`. -/
def wholeValueReferenceExpression (text : Chars) : Option Chars :=
  match parseInterpolationTokens text with
  | .ok tokens => wholeReference tokens
  | .error _ => none

/-- **An escaped text has no placeholders.** -/
theorem scan_escape {unterminated : String} {check : Chars → Except String Unit} (before text : Chars) :
    scan unterminated check (.outside before) (escape text) = .ok ([], before ++ escape text) := by
  fun_induction escape text generalizing before with
  | case1 rest ih =>
    rw [scan, ih]
    simp
  | case2 c rest hnot ih =>
    have hplain : scan unterminated check (.outside before) (c :: escape rest) =
        scan unterminated check (.outside (before ++ [c])) (escape rest) := by
      rw [scan]
      · intro more _ hmore
        exact escape_ne_opening rest more hmore
      · intro more hc hmore
        obtain ⟨tail, rfl⟩ := escape_eq_brace hmore
        exact hnot tail hc rfl
    rw [hplain, ih]
    simp
  | case3 =>
    rw [scan]
    simp

theorem parseInterpolationTokens_escape (text : Chars) : parseInterpolationTokens (escape text) = .ok ([], escape text) :=
  scan_escape [] text

end GoEtl.Variables
