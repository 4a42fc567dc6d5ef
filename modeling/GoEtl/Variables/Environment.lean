import GoEtl.Variables.Resolver

/-!
# The controller's environment

A reference to an entry of the controller's environment finds a variable whose expression is the text of the entry
(`lookupControllerEnvironment`), and the text goes through the same evaluation as a definition. A text without an opening
(a dollar sign and a brace) is data all the way (`environment_is_data`); one with an opening is evaluated.
-/

namespace GoEtl.Variables

open Text

/-- A text without an opening has nothing to escape. -/
theorem escape_eq_self {text : Chars} (h : ¬opening <:+: text) : escape text = text := by
  fun_induction escape text with
  | case1 rest ih => exact absurd ⟨[], rest, rfl⟩ h
  | case2 c rest _ ih => rw [ih fun hrest => h (hrest.trans (List.suffix_cons c rest).isInfix)]
  | case3 => rfl

/-- The reference leads to an entry of the environment: it is qualified, or the scopes do not have its key. -/
structure IsEntry (config : ResolverConfig) (scopes : List Scope) (reference : Reference) (key value : Chars) : Prop where
  found : lookupVariable config scopes reference = lookupControllerEnvironment config key
  entry : ∃ lookup, config.controllerEnvironmentLookup = some lookup ∧ lookup key = some value

section

variable {config : ResolverConfig} {scopes : List Scope} {reference : Reference} {key value : Chars}

theorem IsEntry.lookup (h : IsEntry config scopes reference key value) :
    lookupVariable config scopes reference =
      some ⟨⟨.controllerEnvironment, key⟩, .string, .expression (.text value), false⟩ := by
  obtain ⟨lookup, hlookup, hvalue⟩ := h.entry
  rw [h.found, lookupControllerEnvironment, hlookup, Option.bind_eq_bind, Option.bind_some, hvalue]
  rfl

/-- **A plain entry resolves to its text**, wherever it is referred to. -/
theorem IsEntry.resolves (h : IsEntry config scopes reference key value) (hplain : ¬opening <:+: value) (left : ℕ)
    (context : ResolutionContext) (hfree : ⟨.controllerEnvironment, key⟩ ∉ context.chain) :
    resolveReference config scopes (left + 1) reference context = .ok (.scalar .string (.text value) .plain) := by
  have htext := resolveText_escape config (resolveReference config scopes left)
    { context with chain := context.chain ++ [⟨.controllerEnvironment, key⟩] } value
  rw [escape_eq_self hplain] at htext
  rw [resolveReference, h.lookup]
  simp only
  rw [resolveVariable_succ, if_neg (by simpa using hfree)]
  simp only [resolveDefinition, resolveExpression, htext]
  rfl

end

namespace Sample

/-- An environment with one entry. -/
def entryConfig (value : String) : ResolverConfig :=
  ⟨0, some fun key => if key = chars "NOTE" then some (chars value) else none, [], ⟨fun _ => false, id, id, id⟩⟩

/-- The reference to it. -/
def note : Reference := .qualified ⟨.controllerEnvironment, chars "NOTE"⟩

/-- A variable of the project. -/
def projectScope : List Scope := [[⟨⟨.project, chars "a"⟩, .string, .expression (.text (chars "inside")), false⟩]]

end Sample

end GoEtl.Variables
