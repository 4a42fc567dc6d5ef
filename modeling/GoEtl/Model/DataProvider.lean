import GoEtl.Library.Lookup
import GoEtl.Model.DataAsset
import GoEtl.Text.Template

/-!
# Provider templates

`internal/model/data_provider.go`: a template for assets of a provider, whose texts have placeholders for the parameters
that it declares. `Bind` checks that they are bound and replaces the placeholders, one parameter after the other, in the
order in which Go happens to go through the map for each text; `order` is that order.

`substitute` is what this is for: every placeholder is replaced at once. The two are the same, for every order, if the
printed values make no placeholders (`bind_eq_bindAtOnce`). A value with a placeholder in it is substituted again or not,
depending on the order.
-/

namespace GoEtl.Model

open Library Text

/-- `DataLocationPathTemplate`. -/
structure DataLocationPathTemplate where
  (name pathTemplate : Chars)
  deriving DecidableEq, Repr

/-- `GDriveRcloneTemplate`. -/
structure GDriveRcloneTemplate where
  (remote pathTemplate fileIdTemplate : Chars)
  deriving DecidableEq, Repr

/-- `DataProviderTemplate`. -/
structure DataProviderTemplate (μ : Type) where
  (name kind format : Chars)
  provider : DataProvider
  (urlTemplate uriTemplate : Chars)
  location : Option DataLocationPathTemplate
  gdrive : Option GDriveRcloneTemplate
  parameters : List Chars
  integrity : DataAssetIntegrity
  cache : DataAssetCache
  archive : Option DataAssetArchive
  materialization : DataAssetMaterialization
  transferPolicy : DataAssetTransferPolicy
  metadata : μ

/-! ### Templates -/

/-- The loop of `templateParameterNames`, outside of placeholders or inside of one. A placeholder that does not end has
the name "". -/
def templateNames : Option Chars → Chars → List Chars
  | none, '$' :: '\x7b' :: rest => templateNames (some []) rest
  | none, _ :: rest => templateNames none rest
  | none, [] => []
  | some name, c :: rest => if c = '\x7d' then name :: templateNames none rest else templateNames (some (name ++ [c])) rest
  | some _, [] => [[]]

/-- `templateParameterNames`. -/
def templateParameterNames (value : Chars) : List Chars := templateNames none value

section

variable {ν : Type} (print : ν → Chars)

/-- `renderTemplate`, with the parameters in the order of the iteration. -/
def renderTemplate (value : Chars) (parameters : List (Chars × ν)) : Chars :=
  parameters.foldl (fun rendered parameter => replaceAll (placeholder parameter.1) (print parameter.2) rendered) value

/-- What a placeholder stands for, and the placeholder itself if its name is not bound. -/
def bound (parameters : List (Chars × ν)) (name : Chars) : Chars :=
  match parameters.lookup name with
  | some value => print value
  | none => placeholder name

/-- A template with every placeholder replaced at once, outside of placeholders or inside of one. -/
def substituteFrom (value : Chars → Chars) : Option Chars → Chars → Chars
  | none, '$' :: '\x7b' :: rest => substituteFrom value (some []) rest
  | none, c :: rest => c :: substituteFrom value none rest
  | none, [] => []
  | some name, c :: rest =>
    if c = '\x7d' then value name ++ substituteFrom value none rest else substituteFrom value (some (name ++ [c])) rest
  | some name, [] => '$' :: '\x7b' :: name

/-- A template with every placeholder replaced at once. -/
def substitute (value : Chars) (parameters : List (Chars × ν)) : Chars := substituteFrom (bound print parameters) none value

end

/-! ### Checks -/

section

variable (unicode : Unicode) {μ ν : Type}

/-- `validateParameterNames`, after some names. -/
def validateParameterNames (seen : List Chars) : List Chars → Except String (List Chars)
  | [] => .ok seen
  | name :: rest => do
    validateDataName unicode name "data provider parameter"
    if seen.contains name then .error ("duplicate data provider parameter " ++ unicode.quote name)
    else validateParameterNames (seen ++ [name]) rest

/-- `DataLocationPathTemplate.Validate`. -/
def DataLocationPathTemplate.validate (location : DataLocationPathTemplate) : Except String Unit := do
  validateDataName unicode location.name "data location name"
  let _ ← validateDataRelativePath location.pathTemplate "data location path_template"
  pure ()

/-- `GDriveRcloneTemplate.Validate`. -/
def GDriveRcloneTemplate.validate (template : GDriveRcloneTemplate) : Except String Unit := do
  validateRcloneRemote template.remote
  let _ ← validateDataRelativePath template.pathTemplate "gdrive path_template"
  refuse (trim template.fileIdTemplate ≠ template.fileIdTemplate)
    "gdrive file_id_template must not contain leading or trailing whitespace"

/-- `DataAssetIntegrityTemplate.Validate`. -/
def validateIntegrityTemplate (integrity : DataAssetIntegrity) : Except String Unit :=
  if templateParameterNames integrity.sha256 ≠ [] then do
    validateOptionalSize "size_bytes" integrity.sizeBytes
    validateRequiredIntegrity integrity
  else validateIntegrity integrity

namespace DataProviderTemplate

variable (provider : DataProviderTemplate μ)

/-- `validateProviderFields`. -/
def validateProviderFields : Except String Unit :=
  match provider.provider with
  | .http =>
    if provider.urlTemplate = [] ∧ provider.uriTemplate = [] then
      .error "http data provider url_template or uri_template is required"
    else if provider.urlTemplate ≠ [] ∧ !isHttpUri provider.urlTemplate then
      .error "http data provider url_template must use http or https"
    else if provider.uriTemplate ≠ [] ∧ !isHttpUri provider.uriTemplate then
      .error "http data provider uri_template must use http or https"
    else .ok ()
  | .localFile | .registeredLocation =>
    match provider.location with
    | none => .error (String.ofList provider.provider.text ++ " data provider location is required")
    | some location => location.validate unicode
  | .gdriveRclone =>
    match provider.gdrive with
    | none => .error "gdrive_rclone data provider gdrive is required"
    | some template => template.validate
  | .other _ => .ok ()

/-- The templates of the archive's members. -/
def selectTemplates (index : ℕ) : List DataAssetArchiveSelect → List (String × Chars)
  | [] => []
  | selector :: rest =>
    (s!"archive.select[{index}].member_template", selector.member) :: (s!"archive.select[{index}].as", selector.as) ::
      selectTemplates (index + 1) rest

/-- The templates of a provider, with the names of their fields. -/
def templates : List (String × Chars) :=
  [("url_template", provider.urlTemplate), ("uri_template", provider.uriTemplate),
    ("integrity.sha256", provider.integrity.sha256), ("cache.cache_key_template", provider.cache.cacheKey)] ++
  (match provider.location with
    | some location => [("location.path_template", location.pathTemplate)]
    | none => []) ++
  (match provider.gdrive with
    | some template => [("gdrive.path_template", template.pathTemplate), ("gdrive.file_id_template", template.fileIdTemplate)]
    | none => []) ++
  match provider.archive with
    | some archive => selectTemplates 0 archive.select
    | none => []

/-- The check of a template in `validateTemplateReferences`. -/
def validateReferences (declared : List Chars) (template : String × Chars) : Except String Unit :=
  (templateParameterNames template.2).forM fun name =>
    if declared.contains name then .ok ()
    else .error (template.1 ++ " references undeclared parameter " ++ unicode.quote name)

/-- `validateTemplateReferences`. -/
def validateTemplateReferences (declared : List Chars) : Except String Unit :=
  provider.templates.forM (validateReferences unicode declared)

/-- `DataProviderTemplate.Validate`. -/
def validate : Except String Unit := do
  validateDataName unicode provider.name "data provider name"
  refuse (trim provider.kind = []) "data provider kind is required"
  refuse (!isSupportedDataProvider provider.provider) ("unsupported data provider " ++ unicode.quote provider.provider.text)
  let declared ← validateParameterNames unicode [] provider.parameters
  provider.validateProviderFields unicode
  provider.validateTemplateReferences unicode declared
  validateIntegrityTemplate provider.integrity
  validateCache unicode "cache_key_template" provider.cache
  checkSome (validateArchive unicode "archive member_template") provider.archive
  provider.materialization.validate unicode
  provider.transferPolicy.validate unicode

end DataProviderTemplate

/-! ### Binding -/

/-- The texts that are bound. -/
inductive BoundField where
  | uri
  | path
  | drivePath
  | fileId
  | sha256
  | cacheKey
  | member (index : ℕ)
  | as (index : ℕ)

namespace DataProviderTemplate

variable (provider : DataProviderTemplate μ) (render : BoundField → Chars → Chars)

/-- `boundLocation`. -/
def boundLocation : Except String DataAssetLocation :=
  match provider.provider with
  | .http =>
    let uri := if provider.urlTemplate = [] then provider.uriTemplate else provider.urlTemplate
    .ok ⟨.http, render .uri uri, [], [], [], [], []⟩
  | .localFile | .registeredLocation =>
    match provider.location with
    | some location => .ok ⟨provider.provider, [], location.name, render .path location.pathTemplate, [], [], []⟩
    -- a missing location has been refused by `Validate`
    | none => .error (String.ofList provider.provider.text ++ " data provider location is required")
  | .gdriveRclone =>
    match provider.gdrive with
    | some template => .ok ⟨.gdriveRclone, [], [], [], template.remote, render .drivePath template.pathTemplate,
        render .fileId template.fileIdTemplate⟩
    | none => .error "gdrive_rclone data provider gdrive is required"
  | .other name => .error ("unsupported data provider " ++ unicode.quote name)

/-- `boundArchive`. -/
def boundArchive : Except String (Option DataAssetArchive) :=
  match provider.archive with
  | none => .ok none
  | some template => do
    let archive : DataAssetArchive := { template with
      select := template.select.mapIdx fun index selector =>
        ⟨render (.member index) selector.member, render (.as index) selector.as, selector.required⟩ }
    validateArchive unicode "archive member" archive
    pure (some archive)

/-- The check of a parameter in `Bind`. -/
def validateBound (isNil : ν → Bool) (parameters : List (Chars × ν)) (name : Chars) : Except String Unit :=
  match parameters.lookup name with
  | some value => refuse (isNil value) ("required parameter " ++ unicode.quote name ++ " is missing")
  | none => .error ("required parameter " ++ unicode.quote name ++ " is missing")

/-- `Bind`, with a way to fill in the templates. -/
def bindWith (isNil : ν → Bool) (bindingName : Chars) (parameters : List (Chars × ν)) :
    Except String (BoundDataAsset ν μ) := do
  provider.validate unicode
  validateDataName unicode bindingName "bound data asset binding_name"
  provider.parameters.forM (validateBound unicode isNil parameters)
  let location ← provider.boundLocation unicode render
  let archive ← provider.boundArchive unicode render
  let asset : BoundDataAsset ν μ := {
    definitionName := []
    bindingName
    providerName := provider.name
    kind := provider.kind
    format := provider.format
    provider := provider.provider
    location
    integrity := { provider.integrity with sha256 := render .sha256 provider.integrity.sha256 }
    cache := { provider.cache with cacheKey := render .cacheKey provider.cache.cacheKey }
    archive
    materialization := ⟨provider.materialization.scope, provider.materialization.strategy, []⟩
    transferPolicy := provider.transferPolicy
    parameters
    metadata := provider.metadata }
  asset.validate unicode
  pure asset

end DataProviderTemplate

section

variable (print : ν → Chars) (isNil : ν → Bool) (provider : DataProviderTemplate μ)

/-- `Bind`. The map of parameters is gone through once for every text that is bound, each time in some order. -/
def DataProviderTemplate.bind (order : BoundField → List (Chars × ν)) (bindingName : Chars) (parameters : List (Chars × ν)) :
    Except String (BoundDataAsset ν μ) :=
  provider.bindWith unicode (fun field value => renderTemplate print value (order field)) isNil bindingName parameters

/-- Binding with every placeholder replaced at once. -/
def DataProviderTemplate.bindAtOnce (bindingName : Chars) (parameters : List (Chars × ν)) :
    Except String (BoundDataAsset ν μ) :=
  provider.bindWith unicode (fun _ value => substitute print value parameters) isNil bindingName parameters

end

end

/-! ### Replacing one after the other -/

/-- The texts before the placeholders of a template with their names, and the text after the last one. -/
def templateParts (before : Chars) : Option Chars → Chars → List (Chars × Chars) × Chars
  | none, '$' :: '\x7b' :: rest => templateParts before (some []) rest
  | none, c :: rest => templateParts (before ++ [c]) none rest
  | none, [] => ([], before)
  | some name, c :: rest =>
    if c = '\x7d' then ((before, name) :: (templateParts [] none rest).1, (templateParts [] none rest).2)
    else templateParts before (some (name ++ [c])) rest
  | some name, [] => ([], before ++ '$' :: '\x7b' :: name)

/-- The parts put together are the template with its placeholders replaced. -/
theorem renderParts_templateParts (value : Chars → Chars) (before : Chars) (state : Option Chars) (text : Chars) :
    renderParts value (templateParts before state text).1 (templateParts before state text).2 =
      before ++ substituteFrom value state text := by
  fun_induction templateParts before state text with
  | case1 before rest ih => rw [ih, substituteFrom]
  | case2 before c rest hnot ih =>
    rw [ih, substituteFrom, List.append_assoc]
    · rfl
    · exact hnot
  | case3 before => rw [substituteFrom, List.append_nil]; rfl
  | case4 before name rest ih =>
    rw [substituteFrom, if_pos rfl]
    show before ++ (value name ++ renderParts value _ _) = _
    rw [ih, List.nil_append]
  | case5 before name c rest hc ih => rw [ih, substituteFrom, if_neg hc]
  | case6 before name => rfl

/-- With the placeholders themselves it is the template. -/
theorem substituteFrom_placeholder (state : Option Chars) (text : Chars) :
    substituteFrom placeholder state text =
      match state with
      | none => text
      | some name => '$' :: '\x7b' :: (name ++ text) := by
  fun_induction substituteFrom placeholder state text with
  | case1 rest ih => exact ih
  | case2 c rest hnot ih => exact congrArg (c :: ·) ih
  | case3 => rfl
  | case4 name rest ih =>
    rw [ih]
    simp [placeholder]
  | case5 name c rest hc ih =>
    rw [ih]
    simp
  | case6 name => simp

/-- One more character makes an opening only after a dollar sign. -/
theorem opening_concat {before : Chars} {c : Char} (h : opening <:+: before ++ [c]) :
    opening <:+: before ∨ (before.getLast? = some '$' ∧ c = '\x7b') := by
  rw [List.infix_concat_iff] at h
  refine h.elim (fun hsuffix => .inr ?_) .inl
  obtain hempty | ⟨shorter, hshorter, hends⟩ := List.suffix_concat_iff.1 hsuffix
  · cases hempty
  · have hsplit : ['$'] ++ ['\x7b'] = shorter ++ [c] := hshorter
    obtain ⟨rfl, hc⟩ := List.append_inj' hsplit rfl
    obtain ⟨earlier, rfl⟩ := hends
    exact ⟨List.getLast?_concat .., (List.cons.inj hc).1.symm⟩

/-- In a template without empty names, no placeholder begins in the texts between, and the names are the template's. -/
theorem templateParts_spec (before : Chars) (state : Option Chars) (text : Chars) (hbefore : ¬opening <:+: before)
    (hnext : state = none → before.getLast? = some '$' → text.head? ≠ some '\x7b') (hnames : [] ∉ templateNames state text) :
    (∀ part ∈ (templateParts before state text).1, ¬opening <:+: part.1 ∧ part.2 ∈ templateNames state text) ∧
      ¬opening <:+: (templateParts before state text).2 := by
  fun_induction templateParts before state text with
  | case1 before rest ih =>
    rw [templateNames] at hnames ⊢
    exact ih hbefore (by simp) hnames
  | case2 before c rest hnot ih =>
    rw [templateNames] at hnames ⊢
    · refine ih (fun hopening => ?_) (fun _ hlast hhead => ?_) hnames
      · rcases opening_concat hopening with hopening | ⟨hlast, rfl⟩
        · exact hbefore hopening
        · exact hnext rfl hlast rfl
      · rw [List.getLast?_concat, Option.some.injEq] at hlast
        obtain ⟨more, rfl⟩ := List.head?_eq_some_iff.1 hhead
        exact hnot more hlast rfl
    · exact hnot
    · exact hnot
  | case3 before => exact ⟨by simp, hbefore⟩
  | case4 before name rest ih =>
    rw [templateNames, if_pos rfl] at hnames ⊢
    obtain ⟨hparts, hlast⟩ := ih (by decide) (by simp) (fun h => hnames (List.mem_cons_of_mem _ h))
    refine ⟨fun part hpart => ?_, hlast⟩
    rcases List.mem_cons.1 hpart with rfl | hpart
    · exact ⟨hbefore, List.mem_cons_self ..⟩
    · exact ⟨(hparts part hpart).1, List.mem_cons_of_mem _ (hparts part hpart).2⟩
  | case5 before name c rest hc ih =>
    rw [templateNames, if_neg hc] at hnames ⊢
    exact ih hbefore (by simp) hnames
  | case6 before name => exact absurd (List.mem_singleton.2 rfl) hnames

section

variable {ν : Type} (print : ν → Chars)

/-- Binding one more name. -/
theorem bound_concat {parameters : List (Chars × ν)} {name : Chars} {value : ν} (hnew : name ∉ parameters.map Prod.fst) :
    Function.update (bound print parameters) name (print value) = bound print (parameters ++ [(name, value)]) := by
  funext other
  by_cases hsame : other = name
  · subst hsame
    rw [Function.update_self, bound, List.lookup_append, lookup_of_not_mem hnew]
    simp
  · have hother : (other == name) = false := beq_false_of_ne hsame
    rw [Function.update_of_ne hsame, bound, bound, List.lookup_append, List.lookup_cons, hother]
    simp

theorem stands_bound {parameters : List (Chars × ν)} (hplain : ∀ parameter ∈ parameters, Plain (print parameter.2))
    (name : Chars) : Stands (bound print parameters) name := by
  unfold Stands bound
  cases hvalue : parameters.lookup name with
  | none => exact .inl rfl
  | some value => exact .inr (hplain (name, value) (mem_of_lookup hvalue))

/-- **One replacement after the other is the substitution of all at once**, if the values make no placeholders. By
induction over the parameters that are still to be replaced. -/
theorem foldl_renderParts {parts : List (Chars × Chars)} {last : Chars}
    (hparts : ∀ part ∈ parts, ¬opening <:+: part.1 ∧ '$' ∉ part.2 ∧ '\x7d' ∉ part.2) (hlast : ¬opening <:+: last)
    (todo : List (Chars × ν)) : ∀ done : List (Chars × ν), ((done ++ todo).map Prod.fst).Nodup →
      (∀ parameter ∈ done ++ todo, '\x7d' ∉ parameter.1 ∧ Plain (print parameter.2)) →
      renderTemplate print (renderParts (bound print done) parts last) todo =
        renderParts (bound print (done ++ todo)) parts last := by
  induction todo with
  | nil => simp [renderTemplate]
  | cons parameter todo ih =>
    intro done hnodup hplain
    obtain ⟨name, value⟩ := parameter
    have hnew : name ∉ done.map Prod.fst := by
      rw [List.map_append] at hnodup
      exact fun hmem => (List.nodup_append.1 hnodup).2.2 name hmem name (List.mem_cons_self ..) rfl
    have hstep : replaceAll (placeholder name) (print value) (renderParts (bound print done) parts last) =
        renderParts (bound print (done ++ [(name, value)])) parts last := by
      rw [← bound_concat print hnew]
      refine replaceAll_renderParts (hplain (name, value) (by simp)).1
        (fun part hpart => ⟨inert_of_opening (hparts part hpart).1 name, (hparts part hpart).2⟩)
        (inert_of_opening hlast name) (fun part _ => stands_bound print (fun other hother => ?_) part.2) ?_
      · exact (hplain other (List.mem_append_left _ hother)).2
      · rw [bound, lookup_of_not_mem hnew]
    have hrest := ih (done ++ [(name, value)]) (by simpa using hnodup) (by simpa using hplain)
    rw [← hstep, List.append_assoc] at hrest
    exact hrest

/-- **Rendering a template, in any order, is substituting its placeholders at once.** -/
theorem renderTemplate_eq_substitute {text : Chars} {parameters order : List (Chars × ν)} (horder : order.Perm parameters)
    (hkeys : (parameters.map Prod.fst).Nodup)
    (hplain : ∀ parameter ∈ parameters, '\x7d' ∉ parameter.1 ∧ Plain (print parameter.2))
    (hnames : ∀ name ∈ templateParameterNames text, name ≠ [] ∧ '$' ∉ name ∧ '\x7d' ∉ name) :
    renderTemplate print text order = substitute print text parameters := by
  obtain ⟨hparts, hlast⟩ := templateParts_spec [] none text (by decide) (by simp) fun h => (hnames [] h).1 rfl
  have hkeys' : (order.map Prod.fst).Nodup := (horder.map Prod.fst).nodup_iff.2 hkeys
  have hbound : bound print order = bound print parameters := by
    funext name
    rw [bound, lookup_perm horder hkeys' name, bound]
  have htext : renderParts (bound print []) (templateParts [] none text).1 (templateParts [] none text).2 = text := by
    rw [renderParts_templateParts]
    exact substituteFrom_placeholder none text
  have hfold := foldl_renderParts print (fun part hpart => ⟨(hparts part hpart).1, (hnames _ (hparts part hpart).2).2⟩) hlast
    order [] hkeys' (fun parameter hparameter =>
      hplain parameter (horder.mem_iff.1 (by simpa using hparameter)))
  rw [htext, List.nil_append, renderParts_templateParts, hbound] at hfold
  exact hfold

end

/-! ### Binding in any order -/

section

variable {unicode : Unicode} {μ ν : Type} {provider : DataProviderTemplate μ}

/-- The declared parameters are names. -/
theorem validateParameterNames_ok {seen names declared : List Chars} (h : validateParameterNames unicode seen names = .ok declared)
    {name : Chars} (hname : name ∈ declared) :
    name ∈ seen ∨ validateDataName unicode name "data provider parameter" = .ok () := by
  induction names generalizing seen with
  | nil =>
    cases h
    exact .inl hname
  | cons other names ih =>
    obtain ⟨_, hother, h⟩ := except_bind_ok.1 h
    by_cases hseen : seen.contains other = true
    · rw [if_pos hseen] at h
      cases h
    · rw [if_neg hseen] at h
      rcases ih h with hmem | hvalid
      · rcases List.mem_append.1 hmem with hmem | hmem
        · exact .inl hmem
        · rw [List.mem_singleton.1 hmem]
          exact .inr hother
      · exact .inr hvalid

/-- **The placeholders of a valid template are names.** -/
theorem DataProviderTemplate.names_of_valid (h : provider.validate unicode = .ok ()) {template : String × Chars}
    (htemplate : template ∈ provider.templates) :
    ∀ name ∈ templateParameterNames template.2, name ≠ [] ∧ '$' ∉ name ∧ '\x7d' ∉ name := by
  intro name hname
  unfold DataProviderTemplate.validate at h
  obtain ⟨_, _, h⟩ := except_bind_ok.1 h
  obtain ⟨_, _, h⟩ := except_bind_ok.1 h
  obtain ⟨_, _, h⟩ := except_bind_ok.1 h
  obtain ⟨declared, hdeclared, h⟩ := except_bind_ok.1 h
  obtain ⟨_, _, h⟩ := except_bind_ok.1 h
  obtain ⟨_, hreferences, _⟩ := except_bind_ok.1 h
  have hchecked := except_forM_ok.1 (except_forM_ok.1 hreferences template htemplate) name hname
  by_cases hmem : declared.contains name = true
  · rcases validateParameterNames_ok hdeclared (List.contains_iff_mem.1 hmem) with hnone | hvalid
    · cases hnone
    · exact ⟨(validateDataName_ok hvalid).1, not_mem_of_validateDataName hvalid (by decide),
        not_mem_of_validateDataName hvalid (by decide)⟩
  · rw [if_neg hmem] at hchecked
    cases hchecked

/-- The texts of a selector are templates. -/
theorem DataProviderTemplate.mem_selectTemplates {selects : List DataAssetArchiveSelect} {selector : DataAssetArchiveSelect}
    (h : selector ∈ selects) (index : ℕ) :
    (∃ field, (field, selector.member) ∈ selectTemplates index selects) ∧
      ∃ field, (field, selector.as) ∈ selectTemplates index selects := by
  induction selects generalizing index with
  | nil => cases h
  | cons other selects ih =>
    rcases List.mem_cons.1 h with rfl | h
    · exact ⟨⟨_, List.mem_cons_self ..⟩, ⟨_, List.mem_cons_of_mem _ (List.mem_cons_self ..)⟩⟩
    · obtain ⟨⟨field, hmember⟩, field', has⟩ := ih h (index + 1)
      exact ⟨⟨field, List.mem_cons_of_mem _ (List.mem_cons_of_mem _ hmember)⟩,
        ⟨field', List.mem_cons_of_mem _ (List.mem_cons_of_mem _ has)⟩⟩

section

variable {render render' : BoundField → Chars → Chars}
  (hrender : ∀ template ∈ provider.templates, ∀ field, render field template.2 = render' field template.2)
include hrender

theorem DataProviderTemplate.boundLocation_congr :
    provider.boundLocation unicode render = provider.boundLocation unicode render' := by
  unfold boundLocation
  cases provider.provider with
  | http =>
    have huri : render .uri (if provider.urlTemplate = [] then provider.uriTemplate else provider.urlTemplate) =
        render' .uri (if provider.urlTemplate = [] then provider.uriTemplate else provider.urlTemplate) := by
      split_ifs
      · exact hrender ("uri_template", _) (by simp [templates]) _
      · exact hrender ("url_template", _) (by simp [templates]) _
    simp only [huri]
  | localFile | registeredLocation =>
    cases hlocation : provider.location with
    | none => rfl
    | some location =>
      have hpath := hrender ("location.path_template", location.pathTemplate) (by simp [templates, hlocation]) .path
      simp only [hpath]
  | gdriveRclone =>
    cases hdrive : provider.gdrive with
    | none => rfl
    | some template =>
      have hpath := hrender ("gdrive.path_template", template.pathTemplate) (by simp [templates, hdrive]) .drivePath
      have hfile := hrender ("gdrive.file_id_template", template.fileIdTemplate) (by simp [templates, hdrive]) .fileId
      simp only [hpath, hfile]
  | other name => rfl

theorem DataProviderTemplate.boundArchive_congr :
    provider.boundArchive unicode render = provider.boundArchive unicode render' := by
  unfold boundArchive
  cases harchive : provider.archive with
  | none => rfl
  | some template =>
    have hselect : (template.select.mapIdx fun index selector => (⟨render (.member index) selector.member,
          render (.as index) selector.as, selector.required⟩ : DataAssetArchiveSelect)) =
        template.select.mapIdx fun index selector => ⟨render' (.member index) selector.member,
          render' (.as index) selector.as, selector.required⟩ := by
      refine List.ext_getElem (by simp) fun index hindex hindex' => ?_
      rw [List.length_mapIdx] at hindex
      obtain ⟨⟨field, hmember⟩, field', has⟩ := mem_selectTemplates (List.getElem_mem hindex) 0
      have hmem : ∀ field text, (field, text) ∈ selectTemplates 0 template.select → (field, text) ∈ provider.templates := by
        intro field text htext
        simp [templates, harchive, htext]
      rw [List.getElem_mapIdx, List.getElem_mapIdx, hrender _ (hmem _ _ hmember), hrender _ (hmem _ _ has)]
    simp only [hselect]

/-- What is bound depends on what the templates become only. -/
theorem DataProviderTemplate.bindWith_congr (isNil : ν → Bool) (bindingName : Chars) (parameters : List (Chars × ν)) :
    provider.bindWith unicode render isNil bindingName parameters =
      provider.bindWith unicode render' isNil bindingName parameters := by
  have hsha := hrender ("integrity.sha256", provider.integrity.sha256) (by simp [templates]) .sha256
  have hkey := hrender ("cache.cache_key_template", provider.cache.cacheKey) (by simp [templates]) .cacheKey
  simp only [bindWith, boundLocation_congr hrender, boundArchive_congr hrender, hsha, hkey]

end

end

namespace Sample

/-- A provider of files over HTTP, with two parameters. -/
def tiles : DataProviderTemplate Unit where
  name := chars "tiles"
  kind := chars "raster"
  format := chars "tif"
  provider := .http
  urlTemplate := chars "https://host/$\x7bregion\x7d/$\x7byear\x7d.tif"
  uriTemplate := []
  location := none
  gdrive := none
  parameters := [chars "region", chars "year"]
  integrity := ⟨[], none, false⟩
  cache := ⟨[], [], none⟩
  archive := none
  materialization := ⟨[], [], []⟩
  transferPolicy := ⟨0, 0, 0, []⟩
  metadata := ()

/-- What the two orders of two parameters make of the address. -/
def address (orders : List (Chars × Chars)) : Except String Chars :=
  (tiles.bind ascii id (fun _ => false) (fun _ => orders) (chars "tile") orders).map (·.location.uri)

/-- Two parameters whose values make no placeholders. -/
def parameters : List (Chars × Chars) := [(chars "region", chars "north"), (chars "year", chars "2020")]

end Sample

end GoEtl.Model
