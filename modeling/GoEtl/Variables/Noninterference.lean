import GoEtl.Variables.Congruence

/-!
# Sensitive values are not shown

Two sets of scopes that differ only in the expressions of variables marked sensitive are resolved side by side. The
results are *alike*: they have the same shape and the same marks, and the scalars that differ are marked. Printing and
encoding show alike values in the same way, accessors and functions keep them alike, and so does the resolver.

This holds where the sensitive variables are scalars that are written out. A sensitive variable that is an object or a
list is marked as a whole, and its members, which are not, are shown.
-/

namespace GoEtl.Variables

open Library Text

/-! ### Alike values -/

mutual

/-- The values have the same shape and marks, and differ in scalars that are marked as sensitive only. -/
def Alike : ResolvedValue → ResolvedValue → Prop
  | .scalar kind value mark, .scalar kind' value' mark' => kind = kind' ∧ mark = mark' ∧ (mark.sensitive = true ∨ value = value')
  | .object fields mark, .object fields' mark' => mark = mark' ∧ AlikeFields fields fields'
  | .list items mark, .list items' mark' => mark = mark' ∧ AlikeItems items items'
  | _, _ => False

/-- The fields have the same names and alike values. -/
def AlikeFields : List (Chars × ResolvedValue) → List (Chars × ResolvedValue) → Prop
  | [], [] => True
  | (name, value) :: fields, (name', value') :: fields' => name = name' ∧ Alike value value' ∧ AlikeFields fields fields'
  | _, _ => False

/-- The items are alike. -/
def AlikeItems : List ResolvedValue → List ResolvedValue → Prop
  | [], [] => True
  | value :: items, value' :: items' => Alike value value' ∧ AlikeItems items items'
  | _, _ => False

end

/-- Fields with the same name and alike values. -/
def AlikeField (a b : Chars × ResolvedValue) : Prop := a.1 = b.1 ∧ Alike a.2 b.2

theorem alikeItems_iff {a b : List ResolvedValue} : AlikeItems a b ↔ List.Forall₂ Alike a b := by
  induction a generalizing b with
  | nil => cases b <;> simp [AlikeItems]
  | cons value items ih => cases b <;> simp [AlikeItems, ih]

theorem alikeFields_iff {a b : List (Chars × ResolvedValue)} : AlikeFields a b ↔ List.Forall₂ AlikeField a b := by
  induction a generalizing b with
  | nil => cases b <;> simp [AlikeFields]
  | cons field fields ih => cases b <;> simp [AlikeFields, AlikeField, ih, and_assoc]

variable {a b : ResolvedValue}

theorem Alike.mark_eq (h : Alike a b) : a.mark = b.mark := by
  cases a <;> cases b <;> simp_all [Alike, ResolvedValue.mark]

/-- Alike values with a mark that is sensitive where theirs was stay alike. -/
theorem Alike.withMark {mark : Mark} : ∀ {a b : ResolvedValue}, Alike a b →
    (a.mark.sensitive = true → mark.sensitive = true) → Alike (a.withMark mark) (b.withMark mark)
  | .scalar _ _ _, .scalar _ _ _, ⟨hkind, _, hvalue⟩, hmark => ⟨hkind, rfl, hvalue.imp_left hmark⟩
  | .object _ _, .object _ _, ⟨_, hfields⟩, _ => ⟨rfl, hfields⟩
  | .list _ _, .list _ _, ⟨_, hitems⟩, _ => ⟨rfl, hitems⟩

mutual

theorem Alike.refl : ∀ value : ResolvedValue, Alike value value
  | .scalar _ _ _ => ⟨rfl, rfl, .inr rfl⟩
  | .object fields _ => ⟨rfl, AlikeFields.refl fields⟩
  | .list items _ => ⟨rfl, AlikeItems.refl items⟩

theorem AlikeFields.refl : ∀ fields : List (Chars × ResolvedValue), AlikeFields fields fields
  | [] => trivial
  | (_, value) :: fields => ⟨rfl, Alike.refl value, AlikeFields.refl fields⟩

theorem AlikeItems.refl : ∀ items : List ResolvedValue, AlikeItems items items
  | [] => trivial
  | value :: items => ⟨Alike.refl value, AlikeItems.refl items⟩

end

theorem alike_resolvedObject {fields fields' : List (Chars × ResolvedValue)} (h : List.Forall₂ AlikeField fields fields') :
    Alike (resolvedObject fields) (resolvedObject fields') := by
  have hmarks : fields.map (·.2.mark) = fields'.map (·.2.mark) := by
    induction h with
    | nil => rfl
    | cons hfield _ ih => rw [List.map_cons, List.map_cons, hfield.2.mark_eq, ih]
  exact ⟨congrArg aggregate hmarks, alikeFields_iff.2 h⟩

/-! ### Showing alike values -/

mutual

/-- **Alike values have the same JSON form.** -/
theorem Alike.safeJson_eq (times : Times) : ∀ {a b : ResolvedValue}, Alike a b → safeJson times a = safeJson times b
  | .scalar kind value mark, .scalar kind' value' mark', h => by
    obtain ⟨rfl, rfl, hvalue⟩ := h
    have hshown : shownScalar times value mark = shownScalar times value' mark := by
      unfold shownScalar
      split
      · rfl
      · split
        · rfl
        · rename_i hsensitive
          rw [hvalue.resolve_left fun hmark => hsensitive (by simp [Mark.isSensitive, hmark])]
    rw [safeJson, safeJson, hshown]
  | .object fields mark, .object fields' mark', h => by
    obtain ⟨rfl, hfields⟩ := h
    have hempty : fields.isEmpty = fields'.isEmpty := by
      cases fields <;> cases fields' <;> simp_all [AlikeFields]
    rw [safeJson, safeJson, AlikeFields.safeJson_eq times hfields, hempty]
  | .list items mark, .list items' mark', h => by
    obtain ⟨rfl, hitems⟩ := h
    have hempty : items.isEmpty = items'.isEmpty := by
      cases items <;> cases items' <;> simp_all [AlikeItems]
    rw [safeJson, safeJson, AlikeItems.safeJson_eq times hitems, hempty]

theorem AlikeFields.safeJson_eq (times : Times) : ∀ {a b : List (Chars × ResolvedValue)}, AlikeFields a b →
    safeJsonFields times a = safeJsonFields times b
  | [], [], _ => rfl
  | (name, value) :: fields, (name', value') :: fields', h => by
    obtain ⟨rfl, hvalue, hfields⟩ := h
    rw [safeJsonFields, safeJsonFields, Alike.safeJson_eq times hvalue, AlikeFields.safeJson_eq times hfields]

theorem AlikeItems.safeJson_eq (times : Times) : ∀ {a b : List ResolvedValue}, AlikeItems a b →
    safeJsonItems times a = safeJsonItems times b
  | [], [], _ => rfl
  | value :: items, value' :: items', h => by
    obtain ⟨hvalue, hitems⟩ := h
    rw [safeJsonItems, safeJsonItems, Alike.safeJson_eq times hvalue, AlikeItems.safeJson_eq times hitems]

end

/-- **Alike values have the same printed form.** -/
theorem Alike.string_eq (times : Times) : ∀ {a b : ResolvedValue}, Alike a b → a.string times = b.string times
  | .scalar _ value mark, .scalar _ value' _, ⟨_, rfl, hvalue⟩ => by
    show (if mark.isSensitive then mark.label else value.print times) =
      if mark.isSensitive then mark.label else value'.print times
    by_cases hsensitive : mark.isSensitive = true
    · rw [if_pos hsensitive, if_pos hsensitive]
    · rw [hvalue.resolve_left fun hmark => hsensitive (by simp [Mark.isSensitive, hmark])]
  | .object _ _, .object _ _, h => congrArg JsonValue.render (h.safeJson_eq times)
  | .list _ _, .list _ _, h => congrArg JsonValue.render (h.safeJson_eq times)

/-! ### Alike values go through the resolver -/

theorem Alike.shape : ∀ {a b : ResolvedValue}, Alike a b → SameShape True Alike a b
  | .scalar _ _ _, .scalar _ _ _, ⟨rfl, rfl, hvalue⟩ => .scalar (hvalue.imp_left fun hmark => ⟨trivial, hmark⟩)
  | .object _ _, .object _ _, ⟨rfl, hfields⟩ => .object (lookup_rel (alikeFields_iff.1 hfields))
  | .list _ _, .list _ _, ⟨rfl, hitems⟩ => .list (alikeItems_iff.1 hitems)

/-- Alike values that are not sensitive have the same text. -/
theorem interpolationText_alike (times : Times) : ∀ {a b : ResolvedValue}, Alike a b →
    Agree (fun text text' => True ∧ a.mark.sensitive = true ∨ text = text') (interpolationText times a)
      (interpolationText times b)
  | .scalar kind _ mark, .scalar _ _ _, ⟨rfl, rfl, hvalue⟩ => by
    rcases hvalue with hsensitive | rfl
    · exact fun _ _ _ _ => .inl ⟨trivial, hsensitive⟩
    · exact (Agree.refl _).mono fun _ _ => .inr
  | .object _ _, .object _ _, _ => .error_left
  | .list _ _, .list _ _, _ => .error_left

theorem alike_congruent : Congruent (fun _ _ _ r x y => Agree r x y) True Alike where
  toLifting := Agree.lifting
  refl := Alike.refl
  shape := Alike.shape
  scalar h := ⟨rfl, rfl, h.imp_left And.right⟩
  list h := ⟨rfl, alikeItems_iff.2 h⟩
  withMark := Alike.withMark
  text := interpolationText_alike

/-- References resolve to alike values. -/
def AlikeRefer (refer refer' : Refer) : Prop :=
  ReferRel (fun _ _ _ r x y => Agree r x y) Alike (fun _ _ => True) refer refer'

/-! ### Variables -/

/-- The variables differ at most in the expression, and only if they are sensitive. -/
def Twins (item item' : Variable) : Prop :=
  item.name = item'.name ∧ item.kind = item'.kind ∧ item.sensitive = item'.sensitive ∧
    (item.definition = item'.definition ∨
      item.sensitive = true ∧ ∃ expression expression', item.definition = .expression expression ∧
        item'.definition = .expression expression')

/-- The scalar expressions without references. -/
def Expression.IsLiteral : Expression → Prop
  | .text content => ∃ last, parseInterpolationTokens content = .ok ([], last)
  | .int _ | .number _ | .bool _ => True
  | _ => False

/-- The variable has a literal for its expression. -/
def Variable.IsLiteral (item : Variable) : Prop := ∃ expression, item.definition = .expression expression ∧ expression.IsLiteral

/-- The variables differ at most in literals. -/
def Guarded (item item' : Variable) : Prop :=
  item.definition = item'.definition ∨ item.IsLiteral ∧ item'.IsLiteral

theorem parseLiteralExpression_scalar {times : Times} {kind : Kind} {expression : Expression} {value : ResolvedValue}
    (h : parseLiteralExpression times kind expression = .ok value) : ∃ scalar, value = .scalar kind scalar .plain := by
  unfold parseLiteralExpression at h
  split at h <;> try split at h
  all_goals
    first
    | exact ⟨_, (Except.ok.inj h).symm⟩
    | cases h

/-- A literal resolves to a scalar that is not marked. -/
theorem resolveExpression_literal (config : ResolverConfig) {refer : Refer} {context : ResolutionContext} {kind : Kind}
    {expression : Expression} (hliteral : expression.IsLiteral) {value : ResolvedValue}
    (h : resolveExpression config refer context kind expression = .ok value) :
    ∃ scalar, value = .scalar kind scalar .plain := by
  cases expression with
  | text content =>
    obtain ⟨last, hlast⟩ := hliteral
    have hresolved : resolveText config refer context kind content = .ok value := by
      cases kind <;> exact h
    have hwhole : wholeValueReferenceExpression content = none := by
      rw [wholeValueReferenceExpression, hlast]
      rfl
    simp only [resolveText, hwhole] at hresolved
    by_cases hstring : kind = .string ∨ kind = .path
    · rw [if_pos hstring, interpolate_literal config hlast] at hresolved
      cases hresolved
      exact ⟨_, rfl⟩
    · rw [if_neg hstring] at hresolved
      exact parseLiteralExpression_scalar (mapError_ok.1 hresolved)
  | int n =>
    have hresolved : locate context (parseLiteralExpression config.times kind (.int n)) = .ok value := by
      cases kind <;> exact h
    exact parseLiteralExpression_scalar (mapError_ok.1 hresolved)
  | number text =>
    have hresolved : locate context (parseLiteralExpression config.times kind (.number text)) = .ok value := by
      cases kind <;> exact h
    exact parseLiteralExpression_scalar (mapError_ok.1 hresolved)
  | bool b =>
    have hresolved : locate context (parseLiteralExpression config.times kind (.bool b)) = .ok value := by
      cases kind <;> exact h
    exact parseLiteralExpression_scalar (mapError_ok.1 hresolved)
  | object _ | list _ | call _ | other => exact hliteral.elim

/-- Two literals with a sensitive mark are alike. -/
theorem alike_literals {kind : Kind} (scalar scalar' : Scalar) (provenance : Chars) :
    Alike ((ResolvedValue.scalar kind scalar .plain).merge true provenance)
      ((ResolvedValue.scalar kind scalar' .plain).merge true provenance) := ⟨rfl, rfl, .inl rfl⟩

/-! ### Resolution -/

/-- Twins that differ at most in literals. -/
def GuardedTwins (item item' : Variable) : Prop := Twins item item' ∧ Guarded item item'

/-- The definitions of twins resolve to alike values where their references do. -/
theorem resolveDefinition_alike (config : ResolverConfig) {refer refer' : Refer} (hrefer : AlikeRefer refer refer')
    {item item' : Variable} (h : GuardedTwins item item') (context context' : ResolutionContext) :
    Agree Alike (resolveDefinition config refer item context) (resolveDefinition config refer' item' context') := by
  obtain ⟨⟨hname, hkind, hsensitive, hdefinition⟩, hguarded⟩ := h
  unfold resolveDefinition
  rw [← hname, ← hkind, ← hsensitive]
  by_cases hsame : item.definition = item'.definition
  · rw [← hsame]
    cases item.definition with
    | protectedRef ref => exact (alike_congruent.literal _).mapError
    | expression expression =>
      exact (resolveExpression_rel alike_congruent alike_resolvedObject ⟨rfl, rfl⟩ hrefer _ _ trivial item.kind
        expression).bind fun _ _ hvalue => .ok (alike_congruent.merge hvalue _ _)
  · -- the expressions differ, so that they are literals, and the variables are marked
    obtain ⟨hmarked, -⟩ := hdefinition.resolve_left hsame
    obtain ⟨⟨expression, he, hliteral⟩, expression', he', hliteral'⟩ := hguarded.resolve_left hsame
    rw [he, he', hmarked]
    intro value value' hvalue hvalue'
    obtain ⟨resolved, hresolved, hmerged⟩ := except_bind_ok.1 hvalue
    obtain ⟨resolved', hresolved', hmerged'⟩ := except_bind_ok.1 hvalue'
    obtain ⟨scalar, rfl⟩ := resolveExpression_literal config hliteral hresolved
    obtain ⟨scalar', rfl⟩ := resolveExpression_literal config hliteral' hresolved'
    cases hmerged
    cases hmerged'
    exact alike_literals scalar scalar' item.name.string

section

variable (config : ResolverConfig) {scopes scopes' : List Scope} (h : Scopes GuardedTwins scopes scopes')

include h

theorem lookupVariable_twins (reference : Reference) :
    Option.Rel GuardedTwins (lookupVariable config scopes reference) (lookupVariable config scopes' reference) :=
  lookupVariable_rel (fun _ _ htwins => htwins.1.1) (fun _ => ⟨⟨rfl, rfl, rfl, .inl rfl⟩, .inl rfl⟩) config h reference

/-- **Variables that differ in what is sensitive resolve to alike values.** By induction on the depth that is left: the
references of an expression are resolved with less. -/
theorem resolveVariable_alike (left : ℕ) : ∀ {item item' : Variable}, GuardedTwins item item' →
    ∀ context context', Agree Alike (resolveVariable config scopes left item context)
      (resolveVariable config scopes' left item' context') := by
  induction left with
  | zero =>
    intro item item' _ context _ value _ hvalue _
    obtain ⟨_, less, hless, _⟩ := resolveVariable_ok.1 hvalue
    cases hless
  | succ left ih =>
    intro item item' hitem context context' value value' hvalue hvalue'
    obtain ⟨_, less, hless, hvalue⟩ := resolveVariable_ok.1 hvalue
    obtain ⟨_, less', hless', hvalue'⟩ := resolveVariable_ok.1 hvalue'
    cases hless
    cases hless'
    refine resolveDefinition_alike config ?_ hitem _ _ value value' hvalue hvalue'
    intro reference context context' _
    have hrel := lookupVariable_twins config h reference
    unfold resolveReference
    generalize lookupVariable config scopes reference = x at hrel ⊢
    generalize lookupVariable config scopes' reference = y at hrel ⊢
    cases hrel with
    | some htwins => exact ih htwins context context'
    | none => exact .error_left

theorem resolve_alike (reference : Reference) :
    Agree Alike (resolve config scopes reference) (resolve config scopes' reference) := by
  have hrel := lookupVariable_twins config h reference
  unfold resolve
  generalize lookupVariable config scopes reference = x at hrel ⊢
  generalize lookupVariable config scopes' reference = y at hrel ⊢
  cases hrel with
  | some htwins => exact (resolveVariable_alike config h config.depth htwins _ _).mapError
  | none => exact .error_left

end

namespace Sample

/-- A configuration without times and environment. -/
def config : ResolverConfig := ⟨10, none, defaultFunctionRegistry, ⟨fun _ => false, id, id, id⟩⟩

/-- A password, as a variable of its own. -/
def password (secret : String) : Variable :=
  ⟨⟨.project, chars "password"⟩, .string, .expression (.text (chars secret)), true⟩

/-- A password, as a field of an object that is marked. -/
def login (secret : String) : Variable :=
  ⟨⟨.project, chars "login"⟩, .object, .expression (.object [(chars "password", .string, .text (chars secret))]), true⟩

end Sample

end GoEtl.Variables
