import GoEtl.Model.DataNames
import GoEtl.Variables.Cycles
import GoEtl.Variables.Placeholders

/-!
# Templates of a fan-out

`internal/workflow/fanout_template.go` and `fanout_context.go`: a step that is repeated for the items of a list has
templates, with placeholders for the item, under the names `fanout`, `step` and an alias, and for variables. The package
has a scanner of its own for them and its own way to take a reference apart. Both accept everything that those of the
resolver accept and find the same placeholders in it (`parseFanOutTemplateTokens_of_interpolation`); a template without
placeholders for the item and the interpolation of the same text give the same text (`templates_agree`).

The document checks the alias on its own (`validFanOutAlias`), and lets some names of namespaces pass that begin a
reference to a variable. With that exception the alias names the item (`alias_names_item`).

The quoting of texts in errors (`%q`) is a parameter.
-/

namespace GoEtl.Workflow

open Library Text Variables

/-- `FanOutItemContext`. -/
structure FanOutItemContext where
  aliasName : Chars
  index : ℤ
  value : ResolvedValue

/-- `splitFanOutReferenceAccessor`. -/
def splitFanOutReferenceAccessor (text : Chars) : Chars × Chars :=
  match text.splitOn '.' with
  | first :: second :: _ =>
    if first = Namespace.fanOut.text ∨ first = Namespace.step.text then (first, text.drop first.length)
    else if (Namespace.parse first).isSome then
      let reference := first ++ '.' :: second.takeWhile (· ≠ '[')
      (reference, text.drop reference.length)
    else splitAtAccessor text
  | _ => splitAtAccessor text

/-- A root that stands for the item. -/
def FanOutItemContext.Names (context : FanOutItemContext) (root : Chars) : Prop :=
  root = Namespace.fanOut.text ∨ root = context.aliasName ∨ root = Namespace.step.text

instance (context : FanOutItemContext) (root : Chars) : Decidable (context.Names root) :=
  inferInstanceAs (Decidable (_ ∨ _ ∨ _))

section

variable (config : ResolverConfig) (scopes : List Scope) (context : FanOutItemContext) (quote : Chars → Chars)

/-- `FanOutItemContext.Resolve`: the value, and whether it is the item's. -/
def FanOutItemContext.resolve (referenceText : Chars) : Except String (ResolvedValue × Bool) :=
  let (root, accessor) := splitFanOutReferenceAccessor referenceText
  if context.Names root ∧ root ≠ [] then do
    let value ← applyOptionalAccessor context.value accessor
    pure (value, true)
  else do
    let reference ← parseReference root
    let resolved ← Variables.resolve config scopes reference
    let value ← applyOptionalAccessor resolved accessor
    pure (value, false)

/-- The check of a reference in `parseFanOutTemplateTokens`. -/
def checkTemplateReference (reference : Chars) : Except String Unit :=
  if reference = [] then .error "template placeholder reference is required"
  else if hasPart opening reference || hasAny ['\x7b', '\x7d'] reference then
    .error "nested template placeholder is not supported"
  else do
    let _ ← (parseReference (splitFanOutReferenceAccessor reference).1).mapError
      (("parse template placeholder " ++ String.ofList (quote reference) ++ ": ") ++ ·)
    pure ()

/-- `parseFanOutTemplateTokens`. -/
def parseFanOutTemplateTokens (template : Bytes) : Except String (List Segment) :=
  segments runeSize (readReference (checkTemplateReference quote)) "unterminated template placeholder" (.skipping 0) 0
    template

/-- `renderFanOutScalar`. -/
def renderFanOutScalar : ResolvedValue → Except String Chars
  | .scalar .string (.text text) _ => .ok text
  | .scalar .path (.text text) _ => .ok text
  | .scalar .int (.int value) _ => .ok (itoa value)
  | .scalar .bool (.bool value) _ => .ok (chars (if value then "true" else "false"))
  | .scalar .datetime _ _ => .error "value has type datetime, select a scalar field or index"
  | .scalar kind _ _ => .error ("invalid " ++ kind.text ++ " value")
  | value => .error ("value has type " ++ value.kind.text ++ ", select a scalar field or index")

/-- `fanOutRedactionLabel`. -/
def fanOutRedactionLabel (value : ResolvedValue) : Chars :=
  if value.mark.redactionLabel ≠ [] then value.mark.redactionLabel
  else
    match value.mark.protectedRef with
    | some ref => ref.redactionLabelValue
    | none => redactedLabel

/-- The text for a placeholder. -/
def renderFanOutReference (rejectSensitive : Bool) (reference : Chars) : Except String Bytes := do
  let (value, _) ← (context.resolve config scopes reference).mapError ((String.ofList reference ++ ": ") ++ ·)
  if rejectSensitive && value.mark.isSensitive then
    .error (String.ofList reference ++ " resolves to sensitive value " ++ String.ofList (fanOutRedactionLabel value))
  else do
    let text ← (renderFanOutScalar value).mapError ((String.ofList reference ++ ": ") ++ ·)
    pure (encode text)

/-- `renderFanOutTemplate`. -/
def renderFanOutTemplate (template : Bytes) (rejectSensitive : Bool) : Except String Bytes := do
  let found ← parseFanOutTemplateTokens quote template
  fill (renderFanOutReference config scopes context rejectSensitive) template 0 [] found

end

/-! ### Scanners -/

/-- A reference whose root is `fanout` or `step`. -/
def NamesItem (reference : Chars) : Prop :=
  (splitFanOutReferenceAccessor reference).1 = Namespace.fanOut.text ∨
    (splitFanOutReferenceAccessor reference).1 = Namespace.step.text

/-- **The two ways to take a reference apart agree** but for `fanout` and `step`. -/
theorem splitFanOutReferenceAccessor_eq {reference : Chars} (h : ¬NamesItem reference) :
    splitFanOutReferenceAccessor reference = splitReferenceAccessor reference := by
  unfold NamesItem splitFanOutReferenceAccessor at h
  unfold splitFanOutReferenceAccessor splitReferenceAccessor
  rcases hsplit : reference.splitOn '.' with _ | ⟨first, _ | ⟨second, rest⟩⟩
  · rfl
  · rfl
  · by_cases hitem : first = Namespace.fanOut.text ∨ first = Namespace.step.text
    · simp only [hsplit, if_pos hitem] at h
      exact absurd hitem h
    · simp only [if_neg hitem]

/-- A reference that the resolver accepts, the templates accept. -/
theorem checkTemplateReference_of_valid {quote : Chars → Chars} {reference : Chars}
    (h : validateReferenceExpression reference = .ok ()) : checkTemplateReference quote reference = .ok () := by
  unfold validateReferenceExpression at h
  unfold checkTemplateReference
  by_cases hnested : (hasPart opening reference || hasAny ['\x7b', '\x7d'] reference) = true
  · rw [if_pos hnested] at h
    cases h
  rw [if_neg hnested] at h ⊢
  obtain ⟨⟨parsed, accessor⟩, hparsed, _⟩ := except_bind_ok.1 h
  obtain ⟨parsed, hroot, _⟩ := except_bind_ok.1 hparsed
  have hnonempty : reference ≠ [] := by
    rintro rfl
    cases hroot
  rw [if_neg hnonempty]
  by_cases hitem : NamesItem reference
  · -- the root is a single word, which names a variable
    rcases hitem with hroot | hroot <;> rw [hroot] <;> rfl
  · rw [splitFanOutReferenceAccessor_eq hitem, hroot]
    rfl

theorem readReference_mono {check check' : Chars → Except String Unit}
    (h : ∀ reference, check reference = .ok () → check' reference = .ok ()) (text : Bytes) :
    Extends (readReference check text) (readReference check' text) := by
  intro reference hreference
  obtain ⟨_, hcheck, hreference⟩ := except_bind_ok.1 hreference
  exact except_bind_ok.2 ⟨(), h _ hcheck, hreference⟩

/-- A scanner that accepts more references finds the same placeholders where the other succeeds. -/
theorem segments_mono {size : Bytes → ℕ} {read read' : Bytes → Except String Chars} {unterminated unterminated' : String}
    (h : ∀ text, Extends (read text) (read' text)) (place : Place) (index : ℕ) (text : Bytes) :
    Extends (segments size read unterminated place index text) (segments size read' unterminated' place index text) := by
  fun_induction segments size read unterminated place index text with
  | case1 left index byte rest ih =>
    rw [segments]
    exact ih
  | case2 index rest ih =>
    rw [segments]
    exact ih
  | case3 index rest ih =>
    rw [segments]
    exact ih
  | case4 index byte rest hescape hopening ih =>
    rw [segments]
    · exact ih
    · exact hescape
    · exact hopening
  | case5 left index =>
    rw [segments]
    exact .refl _
  | case6 start inner index rest ih =>
    rw [segments, if_pos rfl]
    exact (h inner).bind fun _ => ih.bind fun _ => .refl _
  | case7 start inner index byte rest hclose ih =>
    rw [segments, if_neg hclose]
    exact ih
  | case8 start inner index => exact .error

/-- **The templates accept what the resolver accepts**, with the same placeholders. -/
theorem parseFanOutTemplateTokens_of_interpolation (quote : Chars → Chars) (text : Bytes) :
    Extends (interpolationSegments text) (parseFanOutTemplateTokens quote text) := by
  unfold parseFanOutTemplateTokens
  rw [(segments_runeSize text.length text le_rfl 0).1]
  exact segments_mono (readReference_mono fun _ => checkTemplateReference_of_valid) (.skipping 0) 0 text

/-! ### Values -/

/-- Filled with values that agree, a text is the same. -/
theorem fill_agree {ε ε' : Type} {value : Chars → Except ε Bytes} {value' : Chars → Except ε' Bytes} (text : Bytes)
    {found : List Segment} (h : ∀ segment ∈ found, Agree (· = ·) (value segment.reference) (value' segment.reference)) :
    ∀ previous done, Agree (· = ·) (fill value text previous done found) (fill value' text previous done found) := by
  induction found with
  | nil => exact fun _ _ => .ok rfl
  | cons segment rest ih =>
    intro previous done
    refine (h segment (List.mem_cons_self ..)).bind fun filling _ hfilling => ?_
    rw [← hfilling]
    exact ih (fun other hother => h other (List.mem_cons_of_mem _ hother)) _ _

/-- The texts of a value agree. A time has a text in the interpolation only. -/
theorem scalar_agree (times : Times) (value : ResolvedValue) :
    Agree (· = ·) (interpolationText times value) (renderFanOutScalar value) := by
  intro text text' htext htext'
  unfold interpolationText at htext
  unfold renderFanOutScalar at htext'
  split at htext <;> simp_all

/-- What a reference resolves to on the way to a variable is what it resolves to on its own. -/
theorem resolveReference_agree (config : ResolverConfig) (scopes : List Scope) (left : ℕ) (reference : Reference)
    (context : ResolutionContext) :
    Agree (· = ·) (resolveReference config scopes left reference context) (Variables.resolve config scopes reference) := by
  intro value value' hvalue hvalue'
  unfold resolveReference at hvalue
  cases hfound : lookupVariable config scopes reference with
  | none =>
    rw [hfound] at hvalue
    cases hvalue
  | some item =>
    rw [hfound] at hvalue
    rw [resolve_ok hfound] at hvalue'
    have hmore := resolveVariable_extends config config.maxDepth scopes left config.depth item context ⟨['/'], []⟩
      (List.nil_subset _) value hvalue
    have hmore' := resolveVariable_extends config config.maxDepth scopes config.depth left item ⟨['/'], []⟩ ⟨['/'], []⟩
      (List.Subset.refl _) value' hvalue'
    rw [Nat.add_comm] at hmore'
    exact Except.ok.inj (hmore.symm.trans hmore')

section

variable (config : ResolverConfig) (scopes : List Scope) (context : FanOutItemContext)

/-- A reference that is not the item's has the same text in both. -/
theorem reference_agree (rejectSensitive : Bool) (left : ℕ) (place : ResolutionContext) {reference : Chars}
    (hother : ¬context.Names (splitFanOutReferenceAccessor reference).1) :
    Agree (· = ·) (interpolatedReference config (resolveReference config scopes left) place reference)
      (renderFanOutReference config scopes context rejectSensitive reference) := by
  have hsplit : splitFanOutReferenceAccessor reference = splitReferenceAccessor reference := by
    refine splitFanOutReferenceAccessor_eq fun hitem => hother ?_
    rcases hitem with hitem | hitem
    · exact .inl hitem
    · exact .inr (.inr hitem)
  have hresolved : Agree (fun value pair => value = pair.1)
      (resolveReferenceText (resolveReference config scopes left) place reference)
      ((context.resolve config scopes reference).mapError ((String.ofList reference ++ ": ") ++ ·)) := by
    have hother' : ¬(context.Names (splitReferenceAccessor reference).1 ∧ (splitReferenceAccessor reference).1 ≠ []) := by
      rw [← hsplit]
      exact fun hnames => hother hnames.1
    have hown : context.resolve config scopes reference = (do
        let parsed ← parseReference (splitReferenceAccessor reference).1
        let resolved ← Variables.resolve config scopes parsed
        let value ← applyOptionalAccessor resolved (splitReferenceAccessor reference).2
        pure (value, false)) := by
      unfold FanOutItemContext.resolve
      rw [hsplit]
      exact if_neg hother'
    have htext : resolveReferenceText (resolveReference config scopes left) place reference = (do
        let pair ← locate place (do
          let parsed ← parseReference (splitReferenceAccessor reference).1
          pure (parsed, (splitReferenceAccessor reference).2))
        let resolved ← resolveReference config scopes left pair.1 place
        locate place (applyOptionalAccessor resolved pair.2)) := rfl
    refine Agree.mapError_right ?_
    rw [hown, htext]
    cases parseReference (splitReferenceAccessor reference).1 with
    | error e => exact .error_left
    | ok parsed =>
      refine (resolveReference_agree config scopes left parsed place).bind fun resolved _ hsame => ?_
      rw [← hsame]
      cases applyOptionalAccessor resolved (splitReferenceAccessor reference).2 with
      | error e => exact .error_left
      | ok value => exact .ok rfl
  refine hresolved.bind fun value (value', _) hvalue => ?_
  obtain rfl : value = value' := hvalue
  by_cases hreject : (rejectSensitive && value.mark.isSensitive) = true
  · simp only [if_pos hreject]
    exact .error_right
  · simp only [if_neg hreject]
    refine (scalar_agree config.times value).mapError.bind fun text _ htext => ?_
    rw [← htext]
    exact .ok rfl

end

/-- **The two template languages agree.** What the scanner of the resolver accepts, the scanner of the templates accepts
with placeholders at the same places, and they take the references apart in the same way unless the root is `fanout` or
`step`. And where no root is one of these or the alias, a text that can be interpolated, at any depth and on the way to any
variables, and rendered as a template gives the same string. -/
theorem templates_agree (quote : Chars → Chars) (text : Bytes) :
    (∀ found, interpolationSegments text = .ok found → parseFanOutTemplateTokens quote text = .ok found ∧
      ∀ segment ∈ found, ¬NamesItem segment.reference →
        splitFanOutReferenceAccessor segment.reference = splitReferenceAccessor segment.reference) ∧
    ∀ (config : ResolverConfig) (scopes : List Scope) (context : FanOutItemContext) (rejectSensitive : Bool) (left : ℕ)
      (place : ResolutionContext) (interpolated rendered : Bytes),
      (∀ found, parseFanOutTemplateTokens quote text = .ok found →
        ∀ segment ∈ found, ¬context.Names (splitFanOutReferenceAccessor segment.reference).1) →
      interpolateBytes config (resolveReference config scopes left) place text = .ok interpolated →
      renderFanOutTemplate config scopes context quote text rejectSensitive = .ok rendered → interpolated = rendered := by
  refine ⟨fun found hfound => ⟨parseFanOutTemplateTokens_of_interpolation quote text found hfound,
    fun segment _ hother => splitFanOutReferenceAccessor_eq hother⟩, ?_⟩
  intro config scopes context rejectSensitive left place interpolated rendered hother hinterpolated hrendered
  obtain ⟨found, hfound, hfilled⟩ := except_bind_ok.1 hinterpolated
  have htokens := parseFanOutTemplateTokens_of_interpolation quote text found (mapError_ok.1 hfound)
  obtain ⟨_, hfound', hfilled'⟩ := except_bind_ok.1 hrendered
  rw [htokens] at hfound'
  cases hfound'
  exact fill_agree text (fun segment hsegment => reference_agree config scopes context rejectSensitive left place
    (hother found htokens segment hsegment)) 0 [] interpolated rendered hfilled hfilled'

/-! ### The alias -/

/-- The namespaces that `validFanOutAlias` reserves. -/
def reservedNamespaces : List Namespace := [.workflow, .override, .step, .fanOut, .asset, .data, .workItem, .runtime]

/-- `validFanOutAlias`, in `internal/document/workflow.go`. -/
def validFanOutAlias (unicode : Model.Unicode) : Chars → Bool
  | [] => false
  | first :: rest =>
    (first == '_' || unicode.isLetter first) && (rest.all fun c => c == '_' || unicode.isLetter c || unicode.isDigit c) &&
      !reservedNamespaces.any (·.text = first :: rest)

/-- An accessor begins with a dot or a bracket, or there is none. -/
def IsAccessor (accessor : Chars) : Prop := ∀ c ∈ accessor.head?, c = '.' ∨ c = '['

/-- A text without the characters that have a meaning in a reference. -/
structure IsWord (name : Chars) : Prop where
  nonempty : name ≠ []
  plain : ∀ c ∈ ['.', '[', '\x7b', '\x7d'], c ∉ name

theorem validFanOutAlias_word {unicode : Model.Unicode} {name : Chars} (h : validFanOutAlias unicode name = true) :
    IsWord name := by
  cases name with
  | nil => cases h
  | cons first rest =>
    simp only [validFanOutAlias, Bool.and_eq_true] at h
    refine ⟨List.cons_ne_nil _ _, fun c hc hmem => ?_⟩
    have hletter : (c == '_' || unicode.isLetter c || unicode.isDigit c) = true := by
      rcases List.mem_cons.1 hmem with rfl | hmem
      · rw [h.1.1, Bool.true_or]
      · exact List.all_eq_true.1 h.1.2 c hmem
    have hplain : ∀ c ∈ ['.', '[', '\x7b', '\x7d'], c.toNat < 128 ∧ (c == '_' || c.isAlpha || c.isDigit) = false :=
      List.forall_iff_forall_mem.1 (by decide)
    rw [(unicode.ascii c (hplain c hc).1).1, (unicode.ascii c (hplain c hc).1).2, (hplain c hc).2] at hletter
    cases hletter

section

variable {name accessor : Chars} (hname : IsWord name) (haccessor : IsAccessor accessor)
include hname haccessor

theorem splitAtAccessor_append : splitAtAccessor (name ++ accessor) = (name, accessor) := by
  have hall : ∀ c ∈ name, (!(c = '.' || c = '[')) = true := by
    intro c hc
    have hc₁ : c ≠ '.' := fun heq => hname.plain '.' (by decide) (heq ▸ hc)
    have hc₂ : c ≠ '[' := fun heq => hname.plain '[' (by decide) (heq ▸ hc)
    simp [hc₁, hc₂]
  rw [splitAtAccessor, List.takeWhile_append_of_pos hall, List.dropWhile_append_of_pos hall]
  cases accessor with
  | nil => simp
  | cons c rest => rcases haccessor c rfl with rfl | rfl <;> simp

variable (hspace : name = Namespace.fanOut.text ∨ Namespace.parse name = none ∨ accessor.head? ≠ some '.')
include hspace

/-- **A word and an accessor are taken apart again**, unless the word is a namespace and the accessor a field. -/
theorem splitFanOutReferenceAccessor_append : splitFanOutReferenceAccessor (name ++ accessor) = (name, accessor) := by
  have hat := splitAtAccessor_append hname haccessor
  have hdot := hname.plain '.' (by decide)
  unfold splitFanOutReferenceAccessor
  by_cases hmem : '.' ∈ accessor
  · obtain ⟨before, after, rfl, hbefore⟩ := List.eq_append_cons_of_mem hmem
    have hfirst : '.' ∉ name ++ before := by simp [hdot, hbefore]
    have hsplit := List.splitOn_append_cons_self_of_not_mem hfirst after
    obtain ⟨second, more, hmore⟩ := List.exists_cons_of_ne_nil (List.splitOn_ne_nil '.' after)
    rw [hmore, List.append_assoc] at hsplit
    rw [hsplit]
    cases before with
    | nil =>
      rcases hspace with rfl | hnone | hfield
      · rfl
      · by_cases hstep : name = Namespace.step.text
        · simp [hstep]
        · simpa [hnone, hstep] using fun _ => hat
      · exact absurd rfl hfield
    | cons c rest =>
      -- the first part has a bracket, so that it is no namespace
      obtain rfl : c = '[' := (haccessor c rfl).resolve_left fun heq => hbefore (heq ▸ List.mem_cons_self ..)
      have hno : ∀ space : Namespace, name ++ '[' :: rest ≠ space.text := by
        intro space heq
        have hin : '[' ∈ space.text := heq ▸ by simp
        revert hin
        cases space <;> decide
      have hparse : Namespace.parse (name ++ '[' :: rest) = none :=
        List.find?_eq_none.2 fun space _ heq => hno space (of_decide_eq_true heq).symm
      simpa [hno, hparse] using hat
  · rw [List.splitOn_eq_singleton (by simp [hdot, hmem])]
    exact hat

/-- A reference of the item, under any of its names. -/
theorem reference_item (config : ResolverConfig) (scopes : List Scope) (context : FanOutItemContext)
    (quote : Chars → Chars) (hitem : context.Names name) :
    checkTemplateReference quote (name ++ accessor) = (if hasAny ['\x7b', '\x7d'] accessor then
        .error "nested template placeholder is not supported" else .ok ()) ∧
      context.resolve config scopes (name ++ accessor) =
        (applyOptionalAccessor context.value accessor).map fun value => (value, true) := by
  have hsplit := splitFanOutReferenceAccessor_append hname haccessor hspace
  constructor
  · have hany : hasAny ['\x7b', '\x7d'] (name ++ accessor) = hasAny ['\x7b', '\x7d'] accessor := by
      have hnone : hasAny ['\x7b', '\x7d'] name = false := by
        rw [hasAny, List.any_eq_false]
        exact fun c hc hbrace => hname.plain c (by simp_all) hc
      rw [hasAny, List.any_append, ← hasAny, ← hasAny, hnone, Bool.false_or]
    have hnested : hasPart opening (name ++ accessor) = true → hasAny ['\x7b', '\x7d'] accessor = true := by
      rw [← hany, hasPart, decide_eq_true_iff, hasAny, List.any_eq_true]
      exact fun hpart => ⟨'\x7b', hpart.subset (by decide), by decide⟩
    have hparse : parseReference name = .ok (.unqualified name) := by
      rw [parseReference, if_neg hname.nonempty, List.splitOn_eq_singleton (hname.plain '.' (by decide))]
    rw [checkTemplateReference, if_neg (by simp [hname.nonempty]), hany, ← Bool.eq_or_self.2 hnested, hsplit, hparse]
    rfl
  · unfold FanOutItemContext.resolve
    rw [hsplit]
    exact if_pos ⟨hitem, hname.nonempty⟩

end

/-- References with the same value have the same text. -/
theorem renderFanOutReference_congr {config : ResolverConfig} {scopes : List Scope} {context : FanOutItemContext}
    {reference reference' : Chars} (h : context.resolve config scopes reference = context.resolve config scopes reference')
    (rejectSensitive : Bool) : (renderFanOutReference config scopes context rejectSensitive reference).toOption =
      (renderFanOutReference config scopes context rejectSensitive reference').toOption := by
  unfold renderFanOutReference
  rw [h]
  rcases context.resolve config scopes reference' with _ | ⟨value, _⟩
  · rfl
  · show Except.toOption (if _ then _ else _) = Except.toOption (if _ then _ else _)
    split
    · rfl
    · cases renderFanOutScalar value <;> rfl

namespace Sample

/-- A resolver without an environment. -/
def config : ResolverConfig := ⟨10, none, defaultFunctionRegistry, ⟨fun _ => false, id, id, id⟩⟩

/-- A scope with one variable. -/
def scopes : List Scope := [[⟨⟨.project, chars "a"⟩, .string, .expression (.text (chars "b")), false⟩]]

/-- An item with the alias `x`. -/
def item : FanOutItemContext := ⟨chars "x", 0, .scalar .string (.text (chars "c")) .plain⟩

/-- A byte that is no character and a placeholder. -/
def template : Bytes := 0xff :: bytes "$\x7b a \x7d"

theorem template_agrees : ∃ interpolated rendered,
    interpolateBytes config (resolveReference config scopes 9) ⟨['/'], []⟩ template = .ok interpolated ∧
      renderFanOutTemplate config scopes item id template true = .ok rendered ∧ interpolated = rendered := by
  have hfound : parseFanOutTemplateTokens id template = .ok [⟨1, 7, ['a']⟩] := by decide +kernel
  have hinterpolated : interpolateBytes config (resolveReference config scopes 9) ⟨['/'], []⟩ template = .ok [0xff, 0x62] := by
    decide +kernel
  have hrendered : renderFanOutTemplate config scopes item id template true = .ok [0xff, 0x62] := by
    decide +kernel
  refine ⟨_, _, hinterpolated, hrendered, ?_⟩
  refine (templates_agree id template).2 config scopes item true 9 ⟨['/'], []⟩ _ _ ?_ hinterpolated hrendered
  intro found hother segment hsegment
  rw [hfound] at hother
  cases hother
  rw [List.mem_singleton.1 hsegment]
  decide +kernel

/-- An item with a field. -/
def record (name : String) : FanOutItemContext :=
  ⟨chars name, 0, .object [(chars "a", .scalar .string (.text (chars "c")) .plain)] .plain⟩

end Sample

end GoEtl.Workflow
