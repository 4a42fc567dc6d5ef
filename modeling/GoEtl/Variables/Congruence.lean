import GoEtl.Variables.Resolver

/-!
# Resolving side by side

Two runs of the resolver whose references resolve to related values have related results, for every relation of values
that has the same marks and shapes on both sides and every relation of results that goes through a program
(`Congruent`). Accessors and functions keep values related (`applyOptionalAccessor_rel`, `evaluate_rel`), and so do texts
and expressions (`resolveExpression_rel`).
-/

namespace GoEtl.Variables

open Library Text

/-- The values have the same shape and mark, and their parts are related. Scalars are the same, or they are hidden and
marked as sensitive. -/
inductive SameShape (hidden : Prop) (R : ResolvedValue → ResolvedValue → Prop) : ResolvedValue → ResolvedValue → Prop
  | scalar {kind : Kind} {value value' : Scalar} {mark : Mark} (h : hidden ∧ mark.sensitive = true ∨ value = value') :
    SameShape hidden R (.scalar kind value mark) (.scalar kind value' mark)
  | object {fields fields' : List (Chars × ResolvedValue)} {mark : Mark}
    (h : ∀ name, Option.Rel R (fields.lookup name) (fields'.lookup name)) :
    SameShape hidden R (.object fields mark) (.object fields' mark)
  | list {items items' : List ResolvedValue} {mark : Mark} (h : List.Forall₂ R items items') :
    SameShape hidden R (.list items mark) (.list items' mark)

/-- **What is asked of a relation of results and a relation of values.** -/
structure Congruent (Q : ResultRel) (hidden : Prop) (R : ResolvedValue → ResolvedValue → Prop) : Prop extends Lifting Q where
  refl : ∀ value, R value value
  shape : ∀ {a b}, R a b → SameShape hidden R a b
  scalar : ∀ {kind value value' mark}, hidden ∧ mark.sensitive = true ∨ value = value' →
    R (.scalar kind value mark) (.scalar kind value' mark)
  list : ∀ {items items' mark}, List.Forall₂ R items items' → R (.list items mark) (.list items' mark)
  withMark : ∀ {a b} {mark : Mark}, R a b → (a.mark.sensitive = true → mark.sensitive = true) →
    R (a.withMark mark) (b.withMark mark)
  text : ∀ (times : Times) {a b}, R a b → Q (fun text text' => hidden ∧ a.mark.sensitive = true ∨ text = text')
    (interpolationText times a) (interpolationText times b)

theorem Mark.merge_sensitive {mark : Mark} {sensitive : Bool} {provenance : Chars} (h : mark.sensitive = true) :
    (mark.merge sensitive provenance).sensitive = true := by
  unfold Mark.merge
  split
  · rfl
  · split
    · exact h
    · rfl

variable {Q : ResultRel} {hidden : Prop} {R : ResolvedValue → ResolvedValue → Prop} {a b : ResolvedValue} {items items' : List ResolvedValue}

namespace Congruent

variable (hR : Congruent Q hidden R)

include hR

theorem mark_eq (h : R a b) : a.mark = b.mark := by
  cases hR.shape h <;> rfl

theorem kind_eq (h : R a b) : a.kind = b.kind := by
  cases hR.shape h <;> rfl

theorem merge (h : R a b) (sensitive : Bool) (provenance : Chars) :
    R (a.merge sensitive provenance) (b.merge sensitive provenance) := by
  unfold ResolvedValue.merge
  rw [← hR.mark_eq h]
  exact hR.withMark h Mark.merge_sensitive

theorem marks_eq (h : List.Forall₂ R items items') : items.map (·.mark) = items'.map (·.mark) := by
  induction h with
  | nil => rfl
  | cons hvalue _ ih => rw [List.map_cons, List.map_cons, hR.mark_eq hvalue, ih]

/-- A result that is the same in both runs. -/
theorem literal {ε : Type} (z : Except ε ResolvedValue) : Q R z z := by
  cases z with
  | error e => exact hR.error
  | ok value => exact hR.ok (hR.refl value)

theorem resolvedList (h : List.Forall₂ R items items') : R (resolvedList items) (resolvedList items') := by
  unfold Variables.resolvedList
  rw [hR.marks_eq h]
  exact hR.list h

end Congruent

/-- The item of an index is in both lists or in neither. -/
theorem getElem?_rel (h : List.Forall₂ R items items') (index : ℕ) : Option.Rel R items[index]? items'[index]? := by
  induction h generalizing index with
  | nil => exact .none
  | cons hvalue _ ih =>
    cases index with
    | zero => exact .some hvalue
    | succ index => exact ih index

/-- Fields with the same name and related values. -/
def FieldRel (R : ResolvedValue → ResolvedValue → Prop) (a b : Chars × ResolvedValue) : Prop := a.1 = b.1 ∧ R a.2 b.2

/-- The field of a name is in both objects or in neither. -/
theorem lookup_rel {fields fields' : List (Chars × ResolvedValue)} (h : List.Forall₂ (FieldRel R) fields fields')
    (name : Chars) : Option.Rel R (fields.lookup name) (fields'.lookup name) := by
  induction h with
  | nil => exact .none
  | @cons field field' _ _ hfield _ ih =>
    rw [List.lookup_cons, List.lookup_cons, ← hfield.1]
    by_cases hname : (name == field.1) = true
    · rw [hname]
      exact .some hfield.2
    · rw [Bool.eq_false_iff.2 hname]
      exact ih

section

variable (hR : Congruent Q hidden R)

include hR

/-! ### Accessors -/

theorem applyFieldAccessor_rel (accessor : Chars) (h : R a b) :
    Q R (applyFieldAccessor a accessor) (applyFieldAccessor b accessor) := by
  refine hR.bind_same _ fun field => ?_
  cases hR.shape h with
  | scalar _ => exact hR.error
  | list _ => exact hR.error
  | @object fields fields' _ hfields =>
    have hfound := hfields field
    dsimp only
    generalize fields.lookup field = x at hfound ⊢
    generalize fields'.lookup field = y at hfound ⊢
    cases hfound with
    | some hvalue => exact hR.ok hvalue
    | none => exact hR.error

theorem applyIndexAccessor_rel (accessor : Chars) (h : R a b) :
    Q R (applyIndexAccessor a accessor) (applyIndexAccessor b accessor) := by
  refine hR.bind_same _ fun index => ?_
  cases hR.shape h with
  | scalar _ => exact hR.error
  | object _ => exact hR.error
  | @list items items' _ hitems =>
    by_cases hnegative : index < 0
    · simp only [if_pos hnegative]
      exact hR.error
    · have hfound := getElem?_rel hitems index.toNat
      simp only [if_neg hnegative]
      generalize items[index.toNat]? = x at hfound ⊢
      generalize items'[index.toNat]? = y at hfound ⊢
      cases hfound with
      | some hvalue => exact hR.ok hvalue
      | none => exact hR.error

theorem applyParts_rel (parts : List Chars) : ∀ {a b : ResolvedValue}, R a b → Q R (applyParts a parts) (applyParts b parts) := by
  induction parts with
  | nil => exact fun h => hR.ok h
  | cons part parts ih =>
    intro a b h
    rw [applyParts, applyParts]
    by_cases hdot : part.head? = some '.'
    · rw [if_pos hdot, if_pos hdot]
      exact hR.bind (applyFieldAccessor_rel hR part h) fun _ _ hnext => ih hnext
    · rw [if_neg hdot, if_neg hdot]
      exact hR.bind (applyIndexAccessor_rel hR part h) fun _ _ hnext => ih hnext

/-- **A chain of accessors keeps values related.** -/
theorem applyOptionalAccessor_rel (accessor : Chars) (h : R a b) :
    Q R (applyOptionalAccessor a accessor) (applyOptionalAccessor b accessor) := by
  unfold applyOptionalAccessor
  by_cases hempty : accessor = []
  · rw [if_pos hempty, if_pos hempty]
    exact hR.ok h
  · rw [if_neg hempty, if_neg hempty]
    exact hR.bind_same _ fun parts => applyParts_rel hR parts h

/-! ### Functions -/

theorem listArgument_rel (index : ℕ) (h : R a b) : Q (List.Forall₂ R) (listArgument index a) (listArgument index b) := by
  cases hR.shape h with
  | scalar _ => exact hR.error
  | object _ => exact hR.error
  | list hitems => exact hR.ok hitems

theorem flattenItems_rel (h : List.Forall₂ R items items') :
    ∀ index, Q (List.Forall₂ R) (flattenItems index items) (flattenItems index items') := by
  induction h with
  | nil => exact fun _ => hR.ok .nil
  | cons hitem _ ih =>
    intro index
    cases hR.shape hitem with
    | scalar _ => exact hR.error
    | object _ => exact hR.error
    | list hmembers => exact hR.bind (ih (index + 1)) fun _ _ hrest => hR.ok (List.rel_append hmembers hrest)

theorem pair_rel {a' b' : ResolvedValue} (h : R a b) (h' : R a' b') : R (resolvedList [a, a']) (resolvedList [b, b']) :=
  hR.resolvedList (.cons h (.cons h' .nil))

theorem zipped_rel {left left' right right' : List ResolvedValue} (hleft : List.Forall₂ R left left')
    (hright : List.Forall₂ R right right') :
    List.Forall₂ R (List.zipWith (fun a b => resolvedList [a, b]) left right)
      (List.zipWith (fun a b => resolvedList [a, b]) left' right') := by
  induction hleft generalizing right right' with
  | nil => exact .nil
  | cons hvalue _ ih =>
    cases hright with
    | nil => exact .nil
    | cons hother hrest => exact .cons (pair_rel hR hvalue hother) (ih hrest)

/-- **The functions take related arguments to related values.** -/
theorem evaluate_rel (function : ListFunction) {arguments arguments' : List ResolvedValue}
    (h : List.Forall₂ R arguments arguments') : Q R (function.evaluate arguments) (function.evaluate arguments') := by
  match function, arguments, arguments', h with
  | .crossproduct, [_, _], [_, _], .cons hfirst (.cons hsecond .nil) =>
    refine hR.bind (listArgument_rel hR 0 hfirst) fun _ _ hleft =>
      hR.bind (listArgument_rel hR 1 hsecond) fun _ _ hright => hR.ok (hR.resolvedList ?_)
    exact List.rel_flatMap hleft fun _ _ hvalue => List.rel_map (fun _ _ hother => pair_rel hR hvalue hother) hright
  | .zip, [_, _], [_, _], .cons hfirst (.cons hsecond .nil) =>
    refine hR.bind (listArgument_rel hR 0 hfirst) fun left left' hleft =>
      hR.bind (listArgument_rel hR 1 hsecond) fun right right' hright => ?_
    rw [hleft.length_eq, hright.length_eq]
    by_cases hlength : left'.length ≠ right'.length
    · rw [if_pos hlength]
      exact hR.error
    · rw [if_neg hlength, if_neg hlength]
      exact hR.ok (hR.resolvedList (zipped_rel hR hleft hright))
  | .flatten, [_], [_], .cons hfirst .nil =>
    exact hR.bind (listArgument_rel hR 0 hfirst) fun _ _ hitems =>
      hR.bind (flattenItems_rel hR hitems 0) fun _ _ hflat => hR.ok (hR.resolvedList hflat)
  | .length, [_], [_], .cons hfirst .nil =>
    exact hR.bind (listArgument_rel hR 0 hfirst) fun _ _ hitems => hR.ok (hR.scalar (.inr (by rw [hitems.length_eq])))
  | .crossproduct, [], [], .nil => exact hR.error
  | .crossproduct, [_], [_], .cons _ .nil => exact hR.error
  | .crossproduct, _ :: _ :: _ :: _, _ :: _ :: _ :: _, .cons _ (.cons _ (.cons _ _)) => exact hR.error
  | .zip, [], [], .nil => exact hR.error
  | .zip, [_], [_], .cons _ .nil => exact hR.error
  | .zip, _ :: _ :: _ :: _, _ :: _ :: _ :: _, .cons _ (.cons _ (.cons _ _)) => exact hR.error
  | .flatten, [], [], .nil => exact hR.error
  | .flatten, _ :: _ :: _, _ :: _ :: _, .cons _ (.cons _ _) => exact hR.error
  | .length, [], [], .nil => exact hR.error
  | .length, _ :: _ :: _, _ :: _ :: _, .cons _ (.cons _ _) => exact hR.error

/-! ### Texts and calls -/

/-- A function's result stays related with the mark that it gets from the arguments. -/
theorem mergeArguments_rel {arguments arguments' : List ResolvedValue} (h : List.Forall₂ R arguments arguments')
    (hresult : R a b) : R (mergeArguments arguments a) (mergeArguments arguments' b) := by
  unfold mergeArguments
  rw [← hR.marks_eq h]
  by_cases hseen : (aggregate (arguments.map (·.mark))).sensitive = true
  · have hmerged := hR.merge hresult true (aggregate (arguments.map (·.mark))).provenance
    rw [if_pos hseen, if_pos hseen]
    by_cases hlabel : (aggregate (arguments.map (·.mark))).redactionLabel = []
    · simp only [if_pos hlabel]
      exact hmerged
    · simp only [if_neg hlabel]
      rw [← hR.mark_eq hmerged]
      exact hR.withMark hmerged id
  · rw [if_neg hseen, if_neg hseen]
    exact hresult

variable {config config' : ResolverConfig} {chains : List Name → List Name → Prop} {refer refer' : Refer}

/-- References resolve to related values, on ways that are related. -/
def ReferRel (Q : ResultRel) (R : ResolvedValue → ResolvedValue → Prop) (chains : List Name → List Name → Prop)
    (refer refer' : Refer) : Prop :=
  ∀ reference context context', chains context.chain context'.chain →
    Q R (refer reference context) (refer' reference context')

/-- The resolvers have the same functions. -/
structure SameFunctions (config config' : ResolverConfig) : Prop where
  times : config'.times = config.times
  registry : config'.functionRegistry = config.functionRegistry

/-- What has been collected differs in the text only, and only if something hidden was seen. -/
def TextRel (hidden : Prop) (done done' : Interpolated) : Prop :=
  done.sensitive = done'.sensitive ∧ done.label = done'.label ∧ done.provenance = done'.provenance ∧
    (hidden ∧ done.sensitive = true ∨ done.text = done'.text)

section

variable {done done' : Interpolated}

omit hR

theorem TextRel.append (h : TextRel hidden done done') {more more' : Chars}
    (hmore : hidden ∧ done.sensitive = true ∨ more = more') :
    TextRel hidden { done with text := done.text ++ more } { done' with text := done'.text ++ more' } := by
  refine ⟨h.1, h.2.1, h.2.2.1, ?_⟩
  rcases h.2.2.2 with hsensitive | htext
  · exact .inl hsensitive
  · exact hmore.imp_right fun hmore => by rw [htext, hmore]

theorem TextRel.see (h : TextRel hidden done done') (mark : Mark) : TextRel hidden (done.see mark) (done'.see mark) := by
  unfold Interpolated.see
  rw [← h.1]
  by_cases hfirst : (mark.sensitive && !done.sensitive) = true
  · rw [if_pos hfirst, if_pos hfirst]
    exact ⟨rfl, rfl, rfl, h.2.2.2.imp_left fun hseen => ⟨hseen.1, rfl⟩⟩
  · rw [if_neg hfirst, if_neg hfirst]
    exact h

/-- A sensitive value has been seen once it is looked at. -/
theorem Interpolated.see_sensitive (done : Interpolated) {mark : Mark} (h : mark.sensitive = true) :
    (done.see mark).sensitive = true := by
  unfold Interpolated.see
  by_cases hdone : done.sensitive = true
  · rw [if_neg (by simp [hdone])]
    exact hdone
  · rw [if_pos (by simp [h, hdone])]

end

theorem parseLiteralExpression_rel {context context' : ResolutionContext} (hconfig : SameFunctions config config') (kind : Kind)
    (expression : Expression) : Q R (locate context (parseLiteralExpression config.times kind expression))
      (locate context' (parseLiteralExpression config'.times kind expression)) := by
  rw [hconfig.times]
  exact hR.mapError (hR.literal _)

section

variable (hrefer : ReferRel Q R chains refer refer') {context context' : ResolutionContext}
  (hchain : chains context.chain context'.chain)

include hrefer hchain

theorem resolveReferenceText_rel (text : Chars) :
    Q R (resolveReferenceText refer context text) (resolveReferenceText refer' context' text) :=
  hR.bind (hR.mapError (hR.same _)) fun (reference, accessor) _ hsame => hsame ▸
    hR.bind (hrefer reference context context' hchain) fun _ _ hvalue =>
      hR.mapError (applyOptionalAccessor_rel hR accessor hvalue)

theorem resolveArguments_rel (arguments : List FunctionArgumentReference) : ∀ index,
    Q (List.Forall₂ R) (resolveArguments refer context index arguments) (resolveArguments refer' context' index arguments) := by
  induction arguments with
  | nil => exact fun _ => hR.ok .nil
  | cons argument rest ih =>
    intro index
    refine hR.bind (hrefer argument.reference ⟨_, context.chain⟩ ⟨_, context'.chain⟩ hchain) fun _ _ hresolved => ?_
    refine hR.bind (hR.mapError (applyOptionalAccessor_rel hR argument.accessor hresolved)) fun _ _ hvalue => ?_
    exact hR.bind (ih (index + 1)) fun _ _ hrest => hR.ok (.cons hvalue hrest)

variable (hconfig : SameFunctions config config')

include hconfig

theorem interpolateTokens_rel (tokens : List Token) : ∀ {done done' : Interpolated}, TextRel hidden done done' →
    Q (TextRel hidden) (interpolateTokens config refer context done tokens)
      (interpolateTokens config' refer' context' done' tokens) := by
  induction tokens with
  | nil => exact fun h => hR.ok h
  | cons token tokens ih =>
    intro done done' h
    rw [interpolateTokens, interpolateTokens, hconfig.times]
    refine hR.bind (resolveReferenceText_rel hR hrefer hchain token.reference) fun a b hvalue => ?_
    refine hR.bind (hR.mapError (hR.text config.times hvalue)) fun text text' htext => ih ?_
    rw [List.append_assoc, List.append_assoc, ← hR.mark_eq hvalue]
    refine (h.see a.mark).append ?_
    exact htext.imp (fun hseen => ⟨hseen.1, done.see_sensitive hseen.2⟩) fun htext => by rw [htext]

theorem interpolate_rel (text : Chars) :
    Q (TextRel hidden) (interpolate config refer context text) (interpolate config' refer' context' text) :=
  hR.bind (hR.mapError (hR.same _)) fun (tokens, _) _ hsame => hsame ▸
    hR.bind (interpolateTokens_rel hR hrefer hchain hconfig tokens ⟨rfl, rfl, rfl, .inr rfl⟩) fun _ _ hdone =>
      hR.ok (hdone.append (.inr rfl))

theorem resolveText_rel (kind : Kind) (text : Chars) :
    Q R (resolveText config refer context kind text) (resolveText config' refer' context' kind text) := by
  unfold resolveText
  cases wholeValueReferenceExpression text with
  | some reference =>
    refine hR.bind (resolveReferenceText_rel hR hrefer hchain reference) fun a b hvalue => ?_
    rw [← hR.kind_eq hvalue]
    by_cases hkind : a.kind = kind
    · rw [if_pos hkind, if_pos hkind]
      exact hR.ok hvalue
    · rw [if_neg hkind]
      exact hR.error
  | none =>
    by_cases hkind : kind = .string ∨ kind = .path
    · simp only [if_pos hkind]
      refine hR.bind (interpolate_rel hR hrefer hchain hconfig text) fun done done' hdone => hR.ok ?_
      obtain ⟨hsensitive, hlabel, hprovenance, htext⟩ := hdone
      unfold Interpolated.value
      rw [← hsensitive, ← hlabel, ← hprovenance]
      refine hR.scalar (htext.imp (fun hseen => ⟨hseen.1, ?_⟩) (congrArg Scalar.text))
      rw [hseen.2]
      rfl
    · simp only [if_neg hkind]
      exact parseLiteralExpression_rel hR hconfig _ _

theorem resolveFunctionCall_rel (kind : Kind) (call : FunctionCallExpression) :
    Q R (resolveFunctionCall config refer context kind call) (resolveFunctionCall config' refer' context' kind call) := by
  unfold resolveFunctionCall
  rw [hconfig.registry]
  by_cases htype : call.resultType ≠ kind
  · rw [if_pos htype]
    exact hR.error
  rw [if_neg htype, if_neg htype]
  cases config.functionRegistry.find? (·.functionName = call.name) with
  | none => exact hR.error
  | some function =>
    refine hR.bind (resolveArguments_rel hR hrefer hchain call.arguments 0) fun arguments arguments' harguments => ?_
    refine hR.bind (hR.mapError (hR.mapError (evaluate_rel hR function harguments))) fun a b hresult => ?_
    rw [← hR.kind_eq hresult]
    by_cases hkind : a.kind = kind
    · rw [if_pos hkind, if_pos hkind]
      exact hR.ok (mergeArguments_rel hR harguments hresult)
    · rw [if_neg hkind]
      exact hR.error

end

/-! ### Expressions -/

variable (hobject : ∀ {fields fields'}, List.Forall₂ (FieldRel R) fields fields' → R (resolvedObject fields) (resolvedObject fields'))
  (hconfig : SameFunctions config config') (hrefer : ReferRel Q R chains refer refer')

include hobject hconfig hrefer

set_option linter.unusedSectionVars false in
mutual

/-- **An expression resolves to related values where its references do.** -/
theorem resolveExpression_rel : ∀ (context context' : ResolutionContext) (_ : chains context.chain context'.chain) (kind : Kind)
    (expression : Expression), Q R (resolveExpression config refer context kind expression)
      (resolveExpression config' refer' context' kind expression)
  | _, _, hchain, kind, .call call => by
    cases kind <;> exact resolveFunctionCall_rel hR hrefer hchain hconfig _ call
  | _, _, hchain, kind, .text text => by
    cases kind <;> exact resolveText_rel hR hrefer hchain hconfig _ text
  | context, context', hchain, kind, .object fields => by
    cases kind with
    | object => exact hR.bind (resolveFields_rel context context' hchain fields) fun _ _ hfields => hR.ok (hobject hfields)
    | _ => exact parseLiteralExpression_rel hR hconfig _ _
  | context, context', hchain, kind, .list items => by
    cases kind with
    | list => exact hR.bind (resolveItems_rel context context' hchain 0 items) fun _ _ hitems => hR.ok (hR.resolvedList hitems)
    | _ => exact parseLiteralExpression_rel hR hconfig _ _
  | _, _, _, kind, .int _ => by cases kind <;> exact parseLiteralExpression_rel hR hconfig _ _
  | _, _, _, kind, .number _ => by cases kind <;> exact parseLiteralExpression_rel hR hconfig _ _
  | _, _, _, kind, .bool _ => by cases kind <;> exact parseLiteralExpression_rel hR hconfig _ _
  | _, _, _, kind, .other => by cases kind <;> exact parseLiteralExpression_rel hR hconfig _ _

theorem resolveFields_rel : ∀ (context context' : ResolutionContext) (_ : chains context.chain context'.chain)
    (fields : List (Chars × Kind × Expression)), Q (List.Forall₂ (FieldRel R)) (resolveFields config refer context fields)
      (resolveFields config' refer' context' fields)
  | _, _, _, [] => hR.ok .nil
  | context, context', hchain, (_, kind, expression) :: fields =>
    hR.bind (r := R) (resolveExpression_rel _ _ (by exact hchain) kind expression) fun _ _ hvalue =>
      hR.bind (resolveFields_rel context context' hchain fields) fun _ _ hrest => hR.ok (.cons ⟨rfl, hvalue⟩ hrest)

theorem resolveItems_rel : ∀ (context context' : ResolutionContext) (_ : chains context.chain context'.chain) (index : ℕ)
    (items : List (Kind × Expression)), Q (List.Forall₂ R) (resolveItems config refer context index items)
      (resolveItems config' refer' context' index items)
  | _, _, _, _, [] => hR.ok .nil
  | context, context', hchain, index, (kind, expression) :: items =>
    hR.bind (resolveExpression_rel _ _ (by exact hchain) kind expression) fun _ _ hvalue =>
      hR.bind (resolveItems_rel context context' hchain (index + 1) items) fun _ _ hrest => hR.ok (.cons hvalue hrest)

end

end

end GoEtl.Variables
