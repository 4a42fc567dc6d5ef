import Mathlib.Data.Set.Card
import GoEtl.Variables.Congruence

/-!
# Termination, the depth limit and cycles

Resolving a variable follows the references in its expression. Which these are can be read off the expression
(`Expression.references`), and a variable refers to those that they find (`Refers`). Every step of the resolver consults
the variables it refers to and nothing else (`Consults`): if it succeeds all of them have been resolved, and an error
other than its own is that of one of them.

From this it follows what the depth limit and the check for cycles do: a larger limit changes no result, a limit of the
number of variables within reach is never reached, and there is an error where a cycle is within reach. The error that
there is a cycle goes by names; where a scope has a variable of the controller's environment it may be wrong.
-/

namespace GoEtl.Variables

open Library Text

/-! ### References -/

/-- The reference in a placeholder. -/
def tokenReferences (text : Chars) : List Reference :=
  match parseReferenceExpression text with
  | .ok (reference, _) => [reference]
  | .error _ => []

/-- The references in a text that stands for a value of a type. -/
def textReferences (kind : Kind) (text : Chars) : List Reference :=
  match wholeValueReferenceExpression text with
  | some reference => tokenReferences reference
  | none =>
    if kind = .string ∨ kind = .path then
      match parseInterpolationTokens text with
      | .ok (tokens, _) => tokens.flatMap fun token => tokenReferences token.reference
      | .error _ => []
    else []

mutual

/-- The references in an expression. -/
def Expression.references : Kind → Expression → List Reference
  | _, .call call => call.arguments.map (·.reference)
  | kind, .text content => textReferences kind content
  | .object, .object fields => fieldReferences fields
  | .list, .list items => itemReferences items
  | _, _ => []

/-- The references in the fields of an object. -/
def fieldReferences : List (Chars × Kind × Expression) → List Reference
  | [] => []
  | (_, kind, expression) :: fields => Expression.references kind expression ++ fieldReferences fields

/-- The references in the items of a list. -/
def itemReferences : List (Kind × Expression) → List Reference
  | [] => []
  | (kind, expression) :: items => Expression.references kind expression ++ itemReferences items

end

/-- The references of a variable. One with a protected reference has none. -/
def Variable.references (item : Variable) : List Reference :=
  match item.definition with
  | .expression content => Expression.references item.kind content
  | .protectedRef _ => []

/-- A variable refers to another one. -/
def Refers (config : ResolverConfig) (scopes : List Scope) (item next : Variable) : Prop :=
  ∃ reference ∈ item.references, lookupVariable config scopes reference = some next

/-! ### Consulting references -/

/-- The computation resolves all references if it succeeds, and its error is its own or that of one of them. -/
structure Consults {α : Type} (refer : Refer) (chain : List Name) (references : List Reference) (x : Except LocatedError α) :
    Prop where
  ok : ∀ a, x = .ok a → ∀ reference ∈ references, ∃ path value, refer reference ⟨path, chain⟩ = .ok value
  error : ∀ e, x = .error e → (∃ text, e.cause = .other text) ∨
    ∃ reference ∈ references, ∃ path, refer reference ⟨path, chain⟩ = .error e

namespace Consults

variable {α β : Type} {refer : Refer} {chain : List Name} {references references' : List Reference}
  {x : Except LocatedError α} {context : ResolutionContext}

/-- A computation that consults no references. -/
theorem own (y : Except String α) : Consults refer chain [] (locate context y) where
  ok := by simp
  error := by
    intro e he
    cases y with
    | error text =>
      cases he
      exact .inl ⟨text, rfl⟩
    | ok a => cases he

theorem pure (a : α) : Consults refer chain [] (.ok a) where
  ok := by simp
  error := by
    rintro e ⟨⟩

theorem fail {path : Chars} {text : String} : Consults refer chain references (.error ⟨path, .other text⟩ : Except LocatedError α) where
  ok := by
    rintro a ⟨⟩
  error := by
    rintro e ⟨⟩
    exact .inl ⟨text, rfl⟩

theorem refers (reference : Reference) (context : ResolutionContext) :
    Consults refer context.chain [reference] (refer reference context) where
  ok := by
    intro value hvalue r hr
    rw [List.mem_singleton.1 hr]
    exact ⟨context.path, value, hvalue⟩
  error := fun e he => .inr ⟨reference, List.mem_singleton_self _, context.path, he⟩

/-- **One step after the other.** -/
theorem bind (h : Consults refer chain references x) {f : α → Except LocatedError β}
    (hnext : ∀ a, x = .ok a → Consults refer chain references' (f a)) :
    Consults refer chain (references ++ references') (x >>= f) where
  ok := by
    intro b hb reference hreference
    obtain ⟨a, ha, hb⟩ := except_bind_ok.1 hb
    rcases List.mem_append.1 hreference with hreference | hreference
    · exact h.ok a ha reference hreference
    · exact (hnext a ha).ok b hb reference hreference
  error := by
    intro e he
    cases hx : x with
    | error e' =>
      rw [hx] at he
      cases he
      refine (h.error e hx).imp_right fun ⟨reference, hreference, hpath⟩ => ?_
      exact ⟨reference, List.mem_append_left _ hreference, hpath⟩
    | ok a =>
      rw [hx] at he
      refine ((hnext a hx).error e he).imp_right fun ⟨reference, hreference, hpath⟩ => ?_
      exact ⟨reference, List.mem_append_right _ hreference, hpath⟩

/-- The same, where the rest consults nothing. -/
theorem bind_own (h : Consults refer chain references x) {f : α → Except LocatedError β}
    (hnext : ∀ a, x = .ok a → Consults refer chain [] (f a)) : Consults refer chain references (x >>= f) := by
  have hboth := h.bind hnext
  rwa [List.append_nil] at hboth

end Consults

section

variable (config : ResolverConfig) (refer : Refer) (context : ResolutionContext)

theorem resolveReferenceText_consults (text : Chars) :
    Consults refer context.chain (tokenReferences text) (resolveReferenceText refer context text) := by
  unfold resolveReferenceText tokenReferences
  cases parseReferenceExpression text with
  | error e => exact .fail
  | ok parsed => exact (Consults.refers parsed.1 context).bind_own fun _ _ => .own _

theorem interpolateTokens_consults (tokens : List Token) : ∀ done,
    Consults refer context.chain (tokens.flatMap fun token => tokenReferences token.reference)
      (interpolateTokens config refer context done tokens) := by
  induction tokens with
  | nil => exact fun done => .pure done
  | cons token tokens ih =>
    intro done
    rw [List.flatMap_cons, interpolateTokens]
    refine (resolveReferenceText_consults refer context token.reference).bind fun value _ => ?_
    exact (Consults.own _).bind fun _ _ => ih _

theorem resolveText_consults (kind : Kind) (text : Chars) :
    Consults refer context.chain (textReferences kind text) (resolveText config refer context kind text) := by
  unfold resolveText textReferences
  cases wholeValueReferenceExpression text with
  | some reference =>
    refine (resolveReferenceText_consults refer context reference).bind_own fun value _ => ?_
    by_cases hkind : value.kind = kind
    · rw [if_pos hkind]
      exact .pure value
    · rw [if_neg hkind]
      exact .fail
  | none =>
    by_cases hkind : kind = .string ∨ kind = .path
    · simp only [if_pos hkind]
      unfold interpolate
      cases parseInterpolationTokens text with
      | error e => exact .fail
      | ok parsed =>
        refine Consults.bind_own ?_ fun done _ => .pure (done.value kind)
        exact (interpolateTokens_consults config refer context parsed.1 _).bind_own fun done _ => .pure _
    · simp only [if_neg hkind]
      exact .own _

theorem resolveArguments_consults (arguments : List FunctionArgumentReference) : ∀ index,
    Consults refer context.chain (arguments.map (·.reference)) (resolveArguments refer context index arguments) := by
  induction arguments with
  | nil => exact fun _ => .pure []
  | cons argument rest ih =>
    intro index
    have hrest : ∀ value, Consults refer context.chain (rest.map (·.reference)) (do
        let values ← resolveArguments refer context (index + 1) rest
        pure (value :: values)) :=
      fun value => (ih (index + 1)).bind_own fun values _ => .pure (value :: values)
    have hfirst : Consults refer context.chain [argument.reference] _ := Consults.refers argument.reference
      ⟨appendJsonPointer (appendJsonPointer context.path (chars "arguments")) (itoa index), context.chain⟩
    exact hfirst.bind fun value _ => (Consults.own _).bind fun value _ => hrest value

theorem resolveFunctionCall_consults (kind : Kind) (call : FunctionCallExpression) :
    Consults refer context.chain (call.arguments.map (·.reference)) (resolveFunctionCall config refer context kind call) := by
  unfold resolveFunctionCall
  by_cases htype : call.resultType ≠ kind
  · rw [if_pos htype]
    exact .fail
  rw [if_neg htype]
  cases config.functionRegistry.find? (·.functionName = call.name) with
  | none => exact .fail
  | some function =>
    refine (resolveArguments_consults refer context call.arguments 0).bind_own fun arguments _ => ?_
    refine (Consults.own _).bind_own fun result _ => ?_
    by_cases hkind : result.kind = kind
    · rw [if_pos hkind]
      exact .pure _
    · rw [if_neg hkind]
      exact .fail

mutual

/-- **An expression consults its references.** -/
theorem resolveExpression_consults : ∀ (context : ResolutionContext) (kind : Kind) (expression : Expression),
    Consults refer context.chain (Expression.references kind expression)
      (resolveExpression config refer context kind expression)
  | context, kind, .call call => by
    cases kind <;> exact resolveFunctionCall_consults config refer context _ call
  | context, kind, .text text => by
    cases kind <;> exact resolveText_consults config refer context _ text
  | context, kind, .object fields => by
    cases kind with
    | object => exact (resolveFields_consults context fields).bind_own fun resolved _ => .pure (resolvedObject resolved)
    | _ => exact .own _
  | context, kind, .list items => by
    cases kind with
    | list => exact (resolveItems_consults context 0 items).bind_own fun resolved _ => .pure (resolvedList resolved)
    | _ => exact .own _
  | _, kind, .int _ => by cases kind <;> exact .own _
  | _, kind, .number _ => by cases kind <;> exact .own _
  | _, kind, .bool _ => by cases kind <;> exact .own _
  | _, kind, .other => by cases kind <;> exact .own _

theorem resolveFields_consults : ∀ (context : ResolutionContext) (fields : List (Chars × Kind × Expression)),
    Consults refer context.chain (fieldReferences fields) (resolveFields config refer context fields)
  | _, [] => .pure []
  | context, (name, kind, expression) :: fields =>
    (resolveExpression_consults ⟨appendJsonPointer context.path name, context.chain⟩ kind expression).bind fun resolved _ =>
      (resolveFields_consults context fields).bind_own fun rest _ => .pure ((name, resolved) :: rest)

theorem resolveItems_consults : ∀ (context : ResolutionContext) (index : ℕ) (items : List (Kind × Expression)),
    Consults refer context.chain (itemReferences items) (resolveItems config refer context index items)
  | _, _, [] => .pure []
  | context, index, (kind, expression) :: items =>
    (resolveExpression_consults ⟨appendJsonPointer context.path (itoa index), context.chain⟩ kind expression).bind
      fun resolved _ => (resolveItems_consults context (index + 1) items).bind_own fun rest _ => .pure (resolved :: rest)

end

end

/-! ### More depth -/

/-- The same resolver with another limit. -/
abbrev ResolverConfig.limited (config : ResolverConfig) (limit : ℤ) : ResolverConfig := { config with maxDepth := limit }

/-- Runs with the same results are related. -/
theorem eq_congruent : Congruent (fun _ _ _ r x y => Follows r x y) False (· = ·) where
  toLifting := Follows.lifting
  refl _ := rfl
  shape := by
    rintro (⟨_, _, _⟩ | ⟨fields, _⟩ | ⟨items, _⟩) _ rfl
    · exact .scalar (.inr rfl)
    · exact .object fun name => by cases fields.lookup name <;> constructor; rfl
    · exact .list (List.forall₂_same.2 fun _ _ => rfl)
  scalar h := congrArg (ResolvedValue.scalar _ · _) (h.resolve_left And.left)
  list h := congrArg (ResolvedValue.list · _) (List.forall₂_eq_eq_eq ▸ h)
  withMark h _ := by rw [h]
  text times a b h := by
    rw [h]
    exact fun text htext => ⟨text, htext, .inr rfl⟩

theorem fields_eq {fields fields' : List (Chars × ResolvedValue)} (h : List.Forall₂ (FieldRel (· = ·)) fields fields') :
    fields = fields' := by
  induction h with
  | nil => rfl
  | cons hfield _ ih => rw [Prod.ext hfield.1 hfield.2, ih]

/-- What the one resolves, the other resolves to the same, with as few variables on the way. -/
def ExtendsRefer (refer refer' : Refer) : Prop :=
  ∀ reference context context', context'.chain ⊆ context.chain →
    Extends (refer reference context) (refer' reference context')

section

variable (config : ResolverConfig) (limit : ℤ) (scopes : List Scope)

theorem resolveDefinition_extends {refer refer' : Refer} (h : ExtendsRefer refer refer') (item : Variable)
    {context context' : ResolutionContext} (hchain : context'.chain ⊆ context.chain) :
    Extends (resolveDefinition config refer item context)
      (resolveDefinition (config.limited limit) refer' item context') := by
  unfold resolveDefinition
  rw [← follows_eq]
  cases item.definition with
  | protectedRef ref => exact Follows.lifting.mapError (Follows.lifting.same _)
  | expression content =>
    have hlonger : context'.chain ++ [item.name] ⊆ context.chain ++ [item.name] :=
      List.append_subset.2 ⟨List.Subset.trans hchain (List.subset_append_left _ _), List.subset_append_right _ _⟩
    have hrefer : ReferRel (fun _ _ _ r x y => Follows r x y) (· = ·) (fun chain chain' => chain' ⊆ chain) refer refer' :=
      fun reference context context' hchain => follows_eq.2 (h reference context context' hchain)
    have hsame : SameFunctions config (config.limited limit) := ⟨rfl, rfl⟩
    refine Follows.lifting.bind (resolveExpression_rel eq_congruent (fun hfields => congrArg resolvedObject (fields_eq hfields))
      hsame hrefer ⟨_, _⟩ ⟨_, _⟩ hlonger item.kind content) ?_
    rintro value _ rfl
    exact Follows.lifting.same _

theorem lookupVariable_limited (reference : Reference) :
    lookupVariable (config.limited limit) scopes reference = lookupVariable config scopes reference := rfl

/-- **A result stays with more depth and fewer variables on the way.** By induction on the depth. -/
theorem resolveVariable_extends (left more : ℕ) : ∀ (item : Variable) (context context' : ResolutionContext),
    context'.chain ⊆ context.chain → Extends (resolveVariable config scopes left item context)
      (resolveVariable (config.limited limit) scopes (left + more) item context') := by
  induction left with
  | zero =>
    intro item context context' _ value hvalue
    obtain ⟨_, _, hless, _⟩ := resolveVariable_ok.1 hvalue
    cases hless
  | succ left ih =>
    intro item context context' hchain value hvalue
    obtain ⟨hfree, _, hless, hvalue⟩ := resolveVariable_ok.1 hvalue
    cases hless
    have hfree' : context'.chain.contains item.name = false := by
      rw [Bool.eq_false_iff, Ne, List.contains_iff_mem] at hfree ⊢
      exact fun hmem => hfree (hchain hmem)
    refine resolveVariable_ok.2 ⟨hfree', left + more, by omega, ?_⟩
    refine resolveDefinition_extends config limit (fun reference context context' hchain => ?_) item hchain value hvalue
    unfold resolveReference
    rw [lookupVariable_limited config limit]
    cases lookupVariable config scopes reference with
    | none => exact .error
    | some next => exact ih next context context' hchain

end

/-! ### Cycles -/

/-- `resolveRoot`, before its error is put into words. -/
def resolveRoot (config : ResolverConfig) (scopes : List Scope) (reference : Reference) : Except LocatedError ResolvedValue :=
  resolveReference config scopes config.depth reference ⟨['/'], []⟩

variable {reference : Reference}

theorem resolve_ok {config : ResolverConfig} {scopes : List Scope} {item : Variable} {value : ResolvedValue}
    (hitem : lookupVariable config scopes reference = some item) :
    resolve config scopes reference = .ok value ↔
      resolveVariable config scopes config.depth item ⟨['/'], []⟩ = .ok value := by
  unfold resolve
  rw [hitem]
  exact mapError_ok

/-- The variables within reach of a variable. -/
def reach (config : ResolverConfig) (scopes : List Scope) (item : Variable) : Set Variable :=
  {other | Relation.ReflTransGen (Refers config scopes) item other}

/-- There is a cycle within reach of a variable. -/
def ReachesCycle (config : ResolverConfig) (scopes : List Scope) (item : Variable) : Prop :=
  ∃ other ∈ reach config scopes item, Relation.TransGen (Refers config scopes) other other

section

variable {config : ResolverConfig} {scopes : List Scope} {left : ℕ} {item next : Variable} {context : ResolutionContext}
  {value : ResolvedValue}

theorem resolveDefinition_consults (refer : Refer) (item : Variable) (context : ResolutionContext) :
    Consults refer (context.chain ++ [item.name]) item.references (resolveDefinition config refer item context) := by
  unfold resolveDefinition Variable.references
  cases item.definition with
  | protectedRef ref => exact .own _
  | expression content =>
    refine Consults.bind_own ?_ fun resolved _ => .pure _
    exact resolveExpression_consults config refer ⟨context.path, context.chain ++ [item.name]⟩ item.kind content

/-- What a variable that is resolved refers to is resolved too, with it on the way. -/
theorem resolves_next (h : resolveVariable config scopes left item context = .ok value)
    (hnext : Refers config scopes item next) :
    ∃ less path value', resolveVariable config scopes less next ⟨path, context.chain ++ [item.name]⟩ = .ok value' := by
  obtain ⟨_, less, _, hresolved⟩ := resolveVariable_ok.1 h
  obtain ⟨reference, hreference, hfound⟩ := hnext
  obtain ⟨path, value', hvalue'⟩ :=
    (resolveDefinition_consults _ item context).ok value hresolved reference hreference
  unfold resolveReference at hvalue'
  rw [hfound] at hvalue'
  exact ⟨less, path, value', hvalue'⟩

/-- The same for what it refers to through others. -/
theorem resolves_along (hpath : Relation.TransGen (Refers config scopes) item next)
    (h : resolveVariable config scopes left item context = .ok value) :
    ∃ less context' value', resolveVariable config scopes less next context' = .ok value' ∧ item.name ∈ context'.chain := by
  induction hpath with
  | single hnext =>
    obtain ⟨less, path, value', hvalue'⟩ := resolves_next h hnext
    exact ⟨less, _, value', hvalue', by simp⟩
  | tail _ hnext ih =>
    obtain ⟨less, context', value', hvalue', hmem⟩ := ih
    obtain ⟨less', path, value'', hvalue''⟩ := resolves_next hvalue' hnext
    exact ⟨less', _, value'', hvalue'', List.mem_append_left _ hmem⟩

/-- **A variable on a cycle is not resolved.** -/
theorem not_resolved_of_cycle (hcycle : Relation.TransGen (Refers config scopes) item item) :
    resolveVariable config scopes left item context ≠ .ok value := by
  intro h
  obtain ⟨_, context', _, hagain, hmem⟩ := resolves_along hcycle h
  obtain ⟨hfree, _⟩ := resolveVariable_ok.1 hagain
  rw [Bool.eq_false_iff, Ne, List.contains_iff_mem] at hfree
  exact hfree hmem

/-- Nor is one that reaches a cycle. -/
theorem not_resolved_of_reaches (hcycle : ReachesCycle config scopes item) :
    resolveVariable config scopes left item context ≠ .ok value := by
  intro h
  obtain ⟨other, hreach, hcycle⟩ := hcycle
  rcases Relation.reflTransGen_iff_eq_or_transGen.1 hreach with rfl | hpath
  · exact not_resolved_of_cycle hcycle h
  · obtain ⟨_, _, _, hother, _⟩ := resolves_along hpath h
    exact not_resolved_of_cycle hcycle hother

variable {e : LocatedError}

/-- Where an error other than the resolver's own comes from. -/
theorem resolveVariable_error (h : resolveVariable config scopes (left + 1) item context = .error e)
    (hchain : item.name ∉ context.chain) :
    (∃ text, e.cause = .other text) ∨ ∃ next path, Refers config scopes item next ∧
      resolveVariable config scopes left next ⟨path, context.chain ++ [item.name]⟩ = .error e := by
  rw [resolveVariable_succ, if_neg (by simpa using hchain)] at h
  refine ((resolveDefinition_consults _ item context).error e h).elim .inl fun ⟨reference, hreference, path, herror⟩ => ?_
  unfold resolveReference at herror
  cases hfound : lookupVariable config scopes reference with
  | none =>
    rw [hfound] at herror
    cases herror
    exact .inl ⟨_, rfl⟩
  | some next =>
    rw [hfound] at herror
    exact .inr ⟨next, path, ⟨reference, hreference, hfound⟩, herror⟩

/-- A list of different elements of a set is no longer than the set. -/
theorem length_le_encard {α : Type*} {xs : List α} {set : Set α} (hnodup : xs.Nodup) (hmem : ∀ x ∈ xs, x ∈ set) :
    (xs.length : ℕ∞) ≤ set.encard := by
  classical
  have hsubset : (xs.toFinset : Set α) ⊆ set := fun x hx => hmem x (by simpa using hx)
  calc (xs.length : ℕ∞) = (xs.toFinset : Set α).encard := by
        rw [Set.encard_coe_eq_coe_finsetCard, List.toFinset_card_of_nodup hnodup]
    _ ≤ set.encard := Set.encard_le_encard hsubset

/-- A variable that is on the way already is an error at any depth. -/
theorem resolveVariable_on_way (hmem : item.name ∈ context.chain) :
    resolveVariable config scopes left item context =
      .error ⟨context.path, .cycle (context.chain.dropWhile (· ≠ item.name) ++ [item.name])⟩ := by
  unfold resolveVariable
  exact if_pos (List.contains_iff_mem.2 hmem)

/-- **Where an error comes from**: from the last variable of a way along references, which is on the way already or
finds no steps left. -/
theorem error_way (left : ℕ) : ∀ (item : Variable) (context : ResolutionContext),
    resolveVariable config scopes left item context = .error e → (∀ text, e.cause ≠ .other text) →
    ∃ way last, (way ++ [last]).head? = some item ∧ (way ++ [last]).IsChain (Refers config scopes) ∧
      (context.chain.Nodup → (context.chain ++ way.map (·.name)).Nodup) ∧
      ((last.name ∈ context.chain ++ way.map (·.name) ∧ ∃ names, e.cause = .cycle names) ∨
        last.name ∉ context.chain ++ way.map (·.name) ∧ way.length = left ∧ ∃ name, e.cause = .depth name) := by
  have hmeets : ∀ (left : ℕ) (item : Variable) (context : ResolutionContext), item.name ∈ context.chain →
      resolveVariable config scopes left item context = .error e → ∃ names, e.cause = .cycle names := by
    intro left item context hmem h
    rw [resolveVariable_on_way hmem] at h
    cases h
    exact ⟨_, rfl⟩
  induction left with
  | zero =>
    intro item context h _
    refine ⟨[], item, rfl, .singleton item, by simp, ?_⟩
    rw [List.map_nil, List.append_nil]
    by_cases hmem : item.name ∈ context.chain
    · exact .inl ⟨hmem, hmeets 0 item context hmem h⟩
    · rw [resolveVariable, if_neg (by simpa using hmem)] at h
      cases h
      exact .inr ⟨hmem, rfl, _, rfl⟩
  | succ left ih =>
    intro item context h hother
    by_cases hmem : item.name ∈ context.chain
    · exact ⟨[], item, rfl, .singleton item, by simp, .inl ⟨by simpa using hmem, hmeets _ item context hmem h⟩⟩
    · rcases resolveVariable_error h hmem with ⟨text, htext⟩ | ⟨next, path, hnext, hagain⟩
      · exact absurd htext (hother text)
      · obtain ⟨way, last, hhead, hchain, hnodup, hend⟩ := ih next _ hagain hother
        have hnames : context.chain ++ [item.name] ++ way.map (·.name) = context.chain ++ (item :: way).map (·.name) := by
          simp
        rw [hnames] at hnodup hend
        refine ⟨item :: way, last, rfl, hchain.cons fun v hv => ?_, fun hfree => hnodup ?_, by simpa using hend⟩
        · rw [hhead] at hv
          exact Option.some.inj hv ▸ hnext
        · exact List.concat_eq_append ▸ (List.nodup_concat _ _).2 ⟨hmem, hfree⟩

/-- The variables of a way are within reach, the later ones of the earlier ones. -/
theorem way_reaches {way : List Variable} {last : Variable} (hhead : (way ++ [last]).head? = some item)
    (hchain : (way ++ [last]).IsChain (Refers config scopes)) :
    (∀ v ∈ way ++ [last], v ∈ reach config scopes item) ∧ ∀ v ∈ way, Relation.TransGen (Refers config scopes) v last := by
  have hpair := (hchain.imp fun _ _ => Relation.TransGen.single).pairwise
  refine ⟨fun v hv => ?_, fun v hv => (List.pairwise_append.1 hpair).2.2 v hv last (List.mem_singleton_self _)⟩
  obtain ⟨rest, hrest⟩ := List.head?_eq_some_iff.1 hhead
  rw [hrest] at hv hpair
  rcases List.mem_cons.1 hv with rfl | hv
  · exact .refl
  · exact (List.rel_of_pairwise_cons hpair hv).to_reflTransGen

/-- **The limit is not reached** if there are at least as many steps as variables within reach. -/
theorem no_depth_error {start path : Chars} {name : Name} (hcard : (reach config scopes item).encard ≤ left) :
    resolveVariable config scopes left item ⟨start, []⟩ ≠ .error ⟨path, .depth name⟩ := by
  intro h
  obtain ⟨way, last, hhead, hchain, hnodup, hend⟩ := error_way left item _ h (by simp)
  rcases hend with ⟨_, _, hcycle⟩ | ⟨hfree, hlength, _⟩
  · cases hcycle
  · have hdistinct : ((way ++ [last]).map (·.name)).Nodup := by
      rw [List.map_append, List.map_singleton, ← List.concat_eq_append]
      exact (List.nodup_concat _ _).2 ⟨by simpa using hfree, by simpa using hnodup List.nodup_nil⟩
    have hmore := (length_le_encard hdistinct.of_map (way_reaches hhead hchain).1).trans hcard
    have : (way ++ [last]).length ≤ left := by exact_mod_cast hmore
    rw [List.length_append, List.length_singleton] at this
    omega

/-- The error of the reference that is a whole text. -/
theorem resolveText_error {refer : Refer} {kind : Kind} {text expression accessor : Chars}
    (hwhole : wholeValueReferenceExpression text = some expression)
    (hparse : parseReferenceExpression expression = .ok (reference, accessor)) (he : refer reference context = .error e) :
    resolveText config refer context kind text = .error e := by
  have hreference : resolveReferenceText refer context expression = .error e := by
    unfold resolveReferenceText
    rw [hparse]
    show (refer reference context >>= _) = _
    rw [he]
    rfl
  unfold resolveText
  simp only [hwhole, hreference]
  rfl

/-- The error of the variable that a text refers to. -/
theorem resolveVariable_text_error {text expression accessor : Chars} (hfree : context.chain.contains item.name = false)
    (htext : item.definition = .expression (.text text)) (hwhole : wholeValueReferenceExpression text = some expression)
    (hparse : parseReferenceExpression expression = .ok (reference, accessor))
    (he : resolveReference config scopes left reference ⟨context.path, context.chain ++ [item.name]⟩ = .error e) :
    resolveVariable config scopes (left + 1) item context = .error e := by
  have hexpression : resolveExpression config (resolveReference config scopes left)
      ⟨context.path, context.chain ++ [item.name]⟩ item.kind (.text text) = .error e := by
    cases item.kind <;> exact resolveText_error hwhole hparse he
  rw [resolveVariable_succ, hfree, if_neg Bool.false_ne_true]
  unfold resolveDefinition
  simp only [htext, hexpression]
  rfl

/-- Variables that references find are the same if their names are. -/
def Unambiguous (config : ResolverConfig) (scopes : List Scope) : Prop :=
  ∀ reference reference' item item', lookupVariable config scopes reference = some item →
    lookupVariable config scopes reference' = some item' → item.name = item'.name → item = item'

/-- **A cycle is reported only where there is one.** -/
theorem cycle_of_error (hunambiguous : Unambiguous config scopes) (hitem : lookupVariable config scopes reference = some item)
    {start path : Chars} {names : List Name}
    (h : resolveVariable config scopes left item ⟨start, []⟩ = .error ⟨path, .cycle names⟩) :
    ReachesCycle config scopes item := by
  obtain ⟨way, last, hhead, hchain, _, hend⟩ := error_way left item _ h (by simp)
  obtain ⟨hreach, hpath⟩ := way_reaches hhead hchain
  have hfound : ∀ v ∈ way ++ [last], ∃ reference, lookupVariable config scopes reference = some v := by
    intro v hv
    rcases Relation.ReflTransGen.cases_tail (hreach v hv) with rfl | ⟨_, _, reference, _, hfound⟩
    · exact ⟨reference, hitem⟩
    · exact ⟨reference, hfound⟩
  rcases hend with ⟨hmem, _⟩ | ⟨_, _, _, hdepth⟩
  · obtain ⟨v, hv, hname⟩ := List.mem_map.1 (by simpa using hmem)
    obtain ⟨_, hfirst⟩ := hfound v (List.mem_append_left _ hv)
    obtain ⟨_, hlast⟩ := hfound last (by simp)
    obtain rfl := hunambiguous _ _ _ _ hfirst hlast hname
    exact ⟨v, hreach v (List.mem_append_left _ hv), hpath v hv⟩
  · cases hdepth

end

/-! ### Names -/

section

variable {config : ResolverConfig} {scopes : List Scope}

/-- The environment of the controller and the scopes do not have variables of the same name. -/
def SeparateEnvironment (config : ResolverConfig) (scopes : List Scope) : Prop :=
  config.controllerEnvironmentLookup = none ∨ ∀ scope ∈ scopes, ∀ item ∈ scope, item.name.space ≠ .controllerEnvironment

/-- What a test finds, a narrower one that it passes finds too. -/
theorem lastVariable_narrow {item : Variable} {found narrow : Variable → Bool} (hnarrow : ∀ v, narrow v → found v)
    (hitem : narrow item) (h : lastVariable scopes found = some item) : lastVariable scopes narrow = some item := by
  unfold lastVariable at h ⊢
  rw [List.findSome?_eq_some_iff] at h ⊢
  obtain ⟨later, scope, earlier, hscopes, hscope, hlater⟩ := h
  refine ⟨later, scope, earlier, hscopes, ?_, fun other hother => ?_⟩
  · rw [List.find?_eq_some_iff_append] at hscope ⊢
    obtain ⟨_, before, after, hsplit, hbefore⟩ := hscope
    refine ⟨hitem, before, after, hsplit, fun v hv => ?_⟩
    have hfree := hbefore v hv
    cases hfound : narrow v with
    | false => rfl
    | true => rw [hnarrow v hfound] at hfree; cases hfree
  · have hnone := hlater other hother
    rw [List.find?_eq_none] at hnone ⊢
    exact fun v hv hfound => hnone v hv (hnarrow v hfound)

/-- A variable that a reference finds in the scopes is found by its name. -/
theorem lookupReference_name {item : Variable} (h : lookupReference scopes reference = some item) :
    lookupReference scopes (.qualified item.name) = some item := by
  have hpasses : ∀ found : Variable → Bool, lastVariable scopes found = some item → found item := by
    intro found hfound
    obtain ⟨scope, _, hscope⟩ := List.exists_of_findSome?_eq_some hfound
    exact List.find?_some hscope
  cases reference with
  | qualified name =>
    have hname : item.name = name := by simpa using hpasses _ h
    rwa [hname]
  | unqualified key =>
    have hkey : item.name.key = key := by simpa using hpasses _ h
    refine lastVariable_narrow (fun v hv => ?_) (by simp) h
    have hname : v.name = item.name := by simpa using hv
    simp [hname, hkey]

/-- What a reference finds is the environment's variable of its name or the scopes'. -/
theorem lookupVariable_source {item : Variable} (h : lookupVariable config scopes reference = some item) :
    (item.name.space = .controllerEnvironment ∧ lookupControllerEnvironment config item.name.key = some item) ∨
      lookupReference scopes (.qualified item.name) = some item := by
  have henvironment : ∀ key, lookupControllerEnvironment config key = some item →
      item.name.space = .controllerEnvironment ∧ lookupControllerEnvironment config item.name.key = some item := by
    intro key hkey
    have hname : item.name = ⟨.controllerEnvironment, key⟩ := by
      unfold lookupControllerEnvironment at hkey
      simp only [Option.bind_eq_bind, Option.bind_eq_some_iff, Option.pure_def, Option.some.injEq] at hkey
      obtain ⟨_, _, _, _, rfl⟩ := hkey
      rfl
    rw [hname]
    exact ⟨rfl, hkey⟩
  unfold lookupVariable at h
  cases reference with
  | qualified name =>
    by_cases hspace : name.space = .controllerEnvironment
    · exact .inl (henvironment _ (by simpa only [if_pos hspace] using h))
    · exact .inr (lookupReference_name (by simpa only [if_neg hspace] using h))
  | unqualified key =>
    cases hfound : lookupReference scopes (.unqualified key) with
    | none => exact .inl (henvironment key (by simpa only [hfound] using h))
    | some other =>
      simp only [hfound, Option.some.injEq] at h
      rw [h] at hfound
      exact .inr (lookupReference_name hfound)

/-- Then a name is the name of one variable. -/
theorem unambiguous (hseparate : SeparateEnvironment config scopes) : Unambiguous config scopes := by
  have hapart : ∀ item other : Variable, lookupControllerEnvironment config item.name.key = some item →
      item.name.space = .controllerEnvironment → lookupReference scopes (.qualified item.name) = some other → False := by
    intro item other hitem hspace hother
    rcases hseparate with hnone | hscopes
    · unfold lookupControllerEnvironment at hitem
      rw [hnone] at hitem
      cases hitem
    · obtain ⟨scope, hscope, hfound⟩ := List.exists_of_findSome?_eq_some hother
      have hname : other.name = item.name := by simpa using List.find?_some hfound
      refine hscopes scope (List.mem_reverse.1 hscope) other (List.mem_of_find?_eq_some hfound) ?_
      rw [hname, hspace]
  intro reference reference' item item' hitem hitem' hname
  rcases lookupVariable_source hitem with ⟨hspace, henv⟩ | hscope <;>
    rcases lookupVariable_source hitem' with ⟨hspace', henv'⟩ | hscope'
  · rw [hname, henv'] at henv
    exact (Option.some.inj henv).symm
  · rw [← hname] at hscope'
    exact (hapart item item' henv hspace hscope').elim
  · rw [hname] at hscope
    exact (hapart item' item henv' hspace' hscope).elim
  · rw [hname, hscope'] at hscope
    exact (Option.some.inj hscope).symm

end

namespace Sample

/-- A resolver with a limit of three and an environment that has `PATH`. -/
def environmentConfig : ResolverConfig :=
  ⟨3, some fun key => if key = chars "PATH" then some (chars "/bin") else none, defaultFunctionRegistry,
    ⟨fun _ => false, id, id, id⟩⟩

/-- A variable with a text. -/
def textOf (space : Namespace) (key target : String) : Variable :=
  ⟨⟨space, chars key⟩, .string, .expression (.text (chars target)), false⟩

/-- Two variables that refer to each other. -/
def loop : List Scope := [[textOf .project "a" "$\x7bproject.b\x7d", textOf .project "b" "$\x7bproject.a\x7d"]]

/-- A variable of the controller's environment in a scope, which refers to the one of the same name that the
environment has. -/
def shadow : Variable := textOf .controllerEnvironment "PATH" "$\x7bcontroller_env.PATH\x7d"

/-- The one that the environment has. -/
def path : Variable := textOf .controllerEnvironment "PATH" "/bin"

theorem shadow_ne_path : shadow ≠ path := by
  intro h
  have hdefinition := congrArg Variable.definition h
  cases hdefinition

theorem refers_shadow {next : Variable} (h : Refers environmentConfig [[shadow]] shadow next) : next = path := by
  obtain ⟨reference, hreference, hfound⟩ := h
  have hreferences : shadow.references = [.qualified ⟨.controllerEnvironment, chars "PATH"⟩] := rfl
  rw [hreferences, List.mem_singleton] at hreference
  have hpath : lookupVariable environmentConfig [[shadow]] (.qualified ⟨.controllerEnvironment, chars "PATH"⟩) = some path := rfl
  rw [hreference, hpath] at hfound
  exact (Option.some.inj hfound).symm

theorem not_refers_path {next : Variable} : ¬Refers environmentConfig [[shadow]] path next := by
  rintro ⟨reference, hreference, _⟩
  have hreferences : path.references = [] := rfl
  rw [hreferences] at hreference
  cases hreference

theorem shadow_error :
    resolveRoot environmentConfig [[shadow]] (.unqualified (chars "PATH")) =
      .error ⟨['/'], .cycle [⟨.controllerEnvironment, chars "PATH"⟩, ⟨.controllerEnvironment, chars "PATH"⟩]⟩ := by
  have hshadow : lookupVariable environmentConfig [[shadow]] (.unqualified (chars "PATH")) = some shadow := rfl
  have hpath : lookupVariable environmentConfig [[shadow]] (.qualified ⟨.controllerEnvironment, chars "PATH"⟩) = some path := rfl
  have htext : shadow.definition = .expression (.text (chars "$\x7bcontroller_env.PATH\x7d")) := rfl
  have hwhole : wholeValueReferenceExpression (chars "$\x7bcontroller_env.PATH\x7d") = some (chars "controller_env.PATH") := rfl
  have hparse : parseReferenceExpression (chars "controller_env.PATH") =
      .ok (.qualified ⟨.controllerEnvironment, chars "PATH"⟩, []) := rfl
  have hagain : resolveReference environmentConfig [[shadow]] 2 (.qualified ⟨.controllerEnvironment, chars "PATH"⟩)
      ⟨['/'], [] ++ [shadow.name]⟩ =
        .error ⟨['/'], .cycle [⟨.controllerEnvironment, chars "PATH"⟩, ⟨.controllerEnvironment, chars "PATH"⟩]⟩ := by
    unfold resolveReference
    rw [hpath]
    exact resolveVariable_on_way (by decide)
  have hdepth : environmentConfig.depth = 2 + 1 := rfl
  unfold resolveRoot
  rw [hdepth]
  unfold resolveReference
  rw [hshadow]
  exact resolveVariable_text_error rfl htext hwhole hparse hagain

end Sample

end GoEtl.Variables
