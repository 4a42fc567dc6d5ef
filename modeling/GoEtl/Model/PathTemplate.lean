import GoEtl.Model.DataProvider
import GoEtl.Text.Bytes

/-!
# Templates of output paths

`internal/model/data_asset_collection.go`, from `ParseMaterializationPathTemplate` on. A template of paths has
placeholders for the parameters of an asset, and escaped ones that are text. It is scanned by two functions: one checks
it, the other puts the values in that are known and lists the names of those that are not. Each scanner has its own body
here, and gives the pieces of the text that its iterations come across; what is written for a piece is said by
`Piece.clean` and `Piece.output`.

The path of a collection's member is made in two steps, the parameters that are the same for all members first
(`normalize_staged`). The second step replaces placeholders by name, in a text in which an escaped placeholder looks like
any other.
-/

namespace GoEtl.Model

open Library Text

/-- What an iteration of the scanners comes across. -/
inductive Piece where
  /-- A character of the path. -/
  | char (c : Char)
  /-- A placeholder that is escaped, with what is in the braces. -/
  | escaped (inside : Chars)
  /-- An escaped opening with no closing brace after it. -/
  | opened
  /-- A placeholder, with what is in the braces. -/
  | placeholder (expression : Chars)
  deriving DecidableEq, Repr

/-- An escaped opening. -/
def escapedOpening : Chars := '\\' :: opening

/-- The text in front of the first closing brace, if there is one: `IndexByte`. -/
def untilBrace (text : Chars) : Option Chars :=
  if '\x7d' ∈ text then some (text.takeWhile (· ≠ '\x7d')) else none

/-- The name in a placeholder. -/
def parameterName (expression : Chars) : Chars := trimPrefix (chars "asset.") expression

/-- The text that a piece was read from. -/
def Piece.source : Piece → Chars
  | .char c => [c]
  | .escaped inside => '\\' :: Text.placeholder inside
  | .opened => escapedOpening
  | .placeholder expression => Text.placeholder expression

/-! ### The first scanner -/

section

variable (unicode : Unicode)

/-- The check of a placeholder. -/
def validateExpression (expression : Chars) : Except String Unit :=
  if hasPart opening expression || hasAny ['\x7b', '\x7d'] expression then
    .error ("nested or malformed interpolation " ++ unicode.quote expression)
  else if ¬chars "asset." <+: expression then
    .error ("placeholder " ++ unicode.quote expression ++ " must use asset.<parameter>")
  else validateDataName unicode (parameterName expression) "materialization path_template parameter"

/-- The loop of `ParseMaterializationPathTemplate`, after some characters that belong to the last piece. -/
def parsePieces : ℕ → Chars → Except String (List Piece)
  | _, [] => .ok []
  | left + 1, _ :: rest => parsePieces left rest
  | 0, c :: rest =>
    if escapedOpening <+: c :: rest then
      match untilBrace (rest.drop 2) with
      | none => (parsePieces 2 rest).map (.opened :: ·)
      | some inside => (parsePieces (2 + inside.length + 1) rest).map (.escaped inside :: ·)
    else if c = '\\' then .error "path_template must use forward slashes"
    else if opening <+: c :: rest then
      match untilBrace (rest.drop 1) with
      | none => .error "unterminated interpolation"
      | some expression => do
        validateExpression unicode expression
        (parsePieces (1 + expression.length + 1) rest).map (.placeholder expression :: ·)
    else if c = '\x7b' ∨ c = '\x7d' then .error "unsupported interpolation syntax"
    else (parsePieces 0 rest).map (.char c :: ·)

/-- What the first scanner writes for a piece. -/
def Piece.clean : Piece → Chars
  | .char c => [c]
  | .escaped inside => Text.placeholder inside
  | .opened => opening
  | .placeholder expression => Text.placeholder (chars "asset." ++ parameterName expression)

/-- The name that a piece asks for. -/
def Piece.name? : Piece → Option Chars
  | .placeholder expression => some (parameterName expression)
  | _ => none

/-- `MaterializationPathTemplate`. -/
structure MaterializationPathTemplate where
  (value clean : Chars)
  placeholders : List Chars
  deriving DecidableEq, Repr

/-- `ParseMaterializationPathTemplate`. -/
def parseMaterializationPathTemplate (value : Chars) : Except String MaterializationPathTemplate :=
  if value = [] then .error "path_template is required"
  else do
    let pieces ← parsePieces unicode 0 value
    let _ ← validateArtifactRelativePath (pieces.flatMap Piece.clean)
    pure ⟨value, pieces.flatMap Piece.clean, pieces.filterMap Piece.name?⟩

end

/-! ### The second scanner -/

/-- The loop of `NormalizeMaterializationOutputPathTemplate`. An opening with no closing brace after it is a slice out of
range. -/
def normalizePieces : ℕ → Chars → Option (List Piece)
  | _, [] => some []
  | left + 1, _ :: rest => normalizePieces left rest
  | 0, c :: rest =>
    if escapedOpening <+: c :: rest then
      match untilBrace (rest.drop 2) with
      | none => (normalizePieces 2 rest).map (.opened :: ·)
      | some inside => (normalizePieces (2 + inside.length + 1) rest).map (.escaped inside :: ·)
    else if opening <+: c :: rest then
      match untilBrace (rest.drop 1) with
      | none => none
      | some expression => (normalizePieces (1 + expression.length + 1) rest).map (.placeholder expression :: ·)
    else (normalizePieces 0 rest).map (.char c :: ·)

/-- What the second scanner writes for a piece, with the values that are known. -/
def Piece.output (value : Chars → Option Chars) : Piece → Chars
  | .char c => [c]
  | .escaped inside => Text.placeholder inside
  | .opened => opening
  | .placeholder expression => (value (parameterName expression)).getD (Text.placeholder (parameterName expression))

/-- The names that are asked for and not known, each at its first occurrence. -/
def requiredNames (value : Chars → Option Chars) (seen : List Chars) : List Piece → List Chars
  | [] => []
  | piece :: rest =>
    match piece.name? with
    | none => requiredNames value seen rest
    | some name =>
      if (value name).isSome || seen.contains name then requiredNames value seen rest
      else name :: requiredNames value (seen ++ [name]) rest

section

variable {ν : Type} (unicode : Unicode) (print : ν → Chars)

/-- The printed value of a parameter. -/
def assigned (parameters : List (Chars × ν)) (name : Chars) : Option Chars := (parameters.lookup name).map print

/-- `NormalizeMaterializationOutputPathTemplate`: the path, and the names that are left in it. -/
def normalizeMaterializationOutputPathTemplate (value : Chars) (fixedParameters : List (Chars × ν)) :
    Except String (Chars × List Chars) := do
  let _ ← parseMaterializationPathTemplate unicode value
  match normalizePieces 0 value with
  | none => .error "slice bounds out of range"
  | some pieces => .ok (pieces.flatMap (·.output (assigned print fixedParameters)),
      requiredNames (assigned print fixedParameters) [] pieces)

/-- The second step: the placeholder of every name in a list is replaced by the name's value. -/
def replaceNames (value : Chars → Option Chars) (names : List Chars) (path : Chars) : Chars :=
  names.foldl (fun path name =>
    match value name with
    | some text => replaceAll (placeholder name) text path
    | none => path) path

end

/-! ### What a template is made of -/

/-- The pieces of a text that the first scanner accepts. -/
inductive Pieces (unicode : Unicode) : Chars → List Piece → Prop where
  | nil : Pieces unicode [] []
  | char {c : Char} {rest : Chars} {pieces : List Piece} (hc : c ∉ ['\\', '\x7b', '\x7d'])
      (h : Pieces unicode rest pieces) : Pieces unicode (c :: rest) (.char c :: pieces)
  | escaped {inside rest : Chars} {pieces : List Piece} (hinside : '\x7d' ∉ inside) (h : Pieces unicode rest pieces) :
      Pieces unicode ('\\' :: (placeholder inside ++ rest)) (.escaped inside :: pieces)
  | opened {rest : Chars} {pieces : List Piece} (hrest : '\x7d' ∉ rest) (h : Pieces unicode rest pieces) :
      Pieces unicode (escapedOpening ++ rest) (.opened :: pieces)
  | placeholder {name rest : Chars} {pieces : List Piece}
      (hname : validateDataName unicode name "materialization path_template parameter" = .ok ())
      (h : Pieces unicode rest pieces) :
      Pieces unicode (Text.placeholder (chars "asset." ++ name) ++ rest) (.placeholder (chars "asset." ++ name) :: pieces)

/-- A text with a closing brace is what is before the first one, the brace and the rest. -/
theorem untilBrace_eq_some {text inside : Chars} :
    untilBrace text = some inside ↔ ∃ rest, text = inside ++ '\x7d' :: rest ∧ '\x7d' ∉ inside := by
  unfold untilBrace
  constructor
  · intro h
    split_ifs at h with hmem
    obtain ⟨before, rest, rfl, hbefore⟩ := List.eq_append_cons_of_mem hmem
    rw [takeWhile_closed hbefore, Option.some.injEq] at h
    subst h
    exact ⟨rest, rfl, hbefore⟩
  · rintro ⟨rest, rfl, hinside⟩
    rw [if_pos (by simp), takeWhile_closed hinside]

theorem untilBrace_eq_none {text : Chars} : untilBrace text = none ↔ '\x7d' ∉ text := by
  simp [untilBrace]

theorem validateExpression_ok {unicode : Unicode} {expression : Chars} (h : validateExpression unicode expression = .ok ()) :
    ∃ name, expression = chars "asset." ++ name ∧
      validateDataName unicode name "materialization path_template parameter" = .ok () := by
  unfold validateExpression at h
  split_ifs at h with hnested hasset
  obtain ⟨name, rfl⟩ := hasset
  rw [parameterName, trimPrefix_append] at h
  exact ⟨name, rfl, h⟩

/-- What is after a text in braces. -/
theorem drop_closed (start inside rest : Chars) :
    (start ++ (inside ++ '\x7d' :: rest)).drop (start.length + inside.length + 1) = rest := by
  have hsplit : start ++ (inside ++ '\x7d' :: rest) = (start ++ inside ++ ['\x7d']) ++ rest := by simp
  rw [hsplit]
  exact List.drop_left' (by simp [Nat.add_assoc])

theorem opening_append_closed (inside rest : Chars) : opening ++ (inside ++ '\x7d' :: rest) = placeholder inside ++ rest := by
  simp [opening, placeholder]

/-- **What the first scanner accepts is made of the pieces that it finds.** -/
theorem pieces_of_parsePieces {unicode : Unicode} {left : ℕ} {text : Chars} {pieces : List Piece}
    (h : parsePieces unicode left text = .ok pieces) : Pieces unicode (text.drop left) pieces := by
  fun_induction parsePieces unicode left text generalizing pieces with
  | case1 left =>
    cases h
    rw [List.drop_nil]
    exact .nil
  | case2 left c rest ih => exact ih h
  | case3 c rest hescaped hclosed ih =>
    obtain ⟨pieces, hpieces, rfl⟩ := except_map_ok.1 h
    obtain ⟨after, hafter⟩ := hescaped
    obtain ⟨rfl, rfl⟩ := List.cons.inj hafter
    exact .opened (untilBrace_eq_none.1 hclosed) (ih hpieces)
  | case4 c rest hescaped inside hclosed ih =>
    obtain ⟨pieces, hpieces, rfl⟩ := except_map_ok.1 h
    obtain ⟨after, hafter⟩ := hescaped
    obtain ⟨rfl, rfl⟩ := List.cons.inj hafter
    obtain ⟨more, rfl, hinside⟩ := untilBrace_eq_some.1 hclosed
    have hrest : Pieces unicode ((opening ++ (inside ++ '\x7d' :: more)).drop (opening.length + inside.length + 1)) pieces :=
      ih hpieces
    rw [drop_closed] at hrest
    show Pieces unicode ('\\' :: (opening ++ (inside ++ '\x7d' :: more))) _
    rw [opening_append_closed]
    exact .escaped hinside hrest
  | case5 c rest => cases h
  | case6 c rest hescaped hbackslash hopening hclosed => cases h
  | case7 c rest hescaped hbackslash hopening expression hclosed ih =>
    obtain ⟨_, hvalid, h⟩ := except_bind_ok.1 h
    obtain ⟨pieces, hpieces, rfl⟩ := except_map_ok.1 h
    obtain ⟨name, rfl, hname⟩ := validateExpression_ok hvalid
    obtain ⟨after, hafter⟩ := hopening
    obtain ⟨rfl, rfl⟩ := List.cons.inj hafter
    obtain ⟨more, rfl, -⟩ := untilBrace_eq_some.1 hclosed
    have hrest : Pieces unicode
        ((['\x7b'] ++ ((chars "asset." ++ name) ++ '\x7d' :: more)).drop
          (['\x7b'].length + (chars "asset." ++ name).length + 1)) pieces := ih hpieces
    rw [drop_closed] at hrest
    show Pieces unicode (opening ++ ((chars "asset." ++ name) ++ '\x7d' :: more)) _
    rw [opening_append_closed]
    exact .placeholder hname hrest
  | case8 c rest hescaped hbackslash hopening hbrace => cases h
  | case9 c rest hescaped hbackslash hopening hbrace ih =>
    obtain ⟨pieces, hpieces, rfl⟩ := except_map_ok.1 h
    exact .char (by simpa [hbackslash] using hbrace) (ih hpieces)

/-! ### The two scanners agree -/

section

variable {unicode : Unicode} {text : Chars} {pieces : List Piece}

/-- The text is what the pieces were read from. -/
theorem Pieces.source (h : Pieces unicode text pieces) : pieces.flatMap Piece.source = text := by
  induction h with
  | nil => rfl
  | char _ _ ih => rw [List.flatMap_cons, ih]; rfl
  | escaped _ _ ih => rw [List.flatMap_cons, ih]; rfl
  | opened _ _ ih => rw [List.flatMap_cons, ih]; rfl
  | placeholder _ _ ih => rw [List.flatMap_cons, ih]; rfl

theorem normalizePieces_skip (skipped rest : Chars) : normalizePieces skipped.length (skipped ++ rest) = normalizePieces 0 rest := by
  induction skipped with
  | nil => rfl
  | cons c skipped ih => exact ih

theorem Pieces.head (h : Pieces unicode text pieces) : text.head? ≠ some '\x7b' := by
  cases h with
  | char hc _ =>
    rw [List.head?_cons]
    rintro ⟨⟩
    exact hc (by decide)
  | _ => simp [escapedOpening, opening, Text.placeholder]

/-- No closing brace is in a placeholder. -/
theorem not_mem_expression {name : Chars} {field : String} (h : validateDataName unicode name field = .ok ()) :
    '\x7d' ∉ chars "asset." ++ name := by
  rw [List.mem_append, not_or]
  exact ⟨by decide, not_mem_of_validateDataName h (by decide)⟩

theorem normalizePieces_placeholder {expression rest : Chars} (h : '\x7d' ∉ expression) :
    normalizePieces 0 (placeholder expression ++ rest) = (normalizePieces 0 rest).map (.placeholder expression :: ·) := by
  have hescaped : ¬escapedOpening <+: '$' :: ('\x7b' :: (expression ++ ['\x7d']) ++ rest) := by
    rintro ⟨after, hafter⟩
    exact absurd (List.cons.inj hafter).1 (by decide)
  have hopening : opening <+: '$' :: ('\x7b' :: (expression ++ ['\x7d']) ++ rest) := ⟨_, rfl⟩
  have hclosed : untilBrace (('\x7b' :: (expression ++ ['\x7d']) ++ rest).drop 1) = some expression :=
    untilBrace_eq_some.2 ⟨rest, by simp, h⟩
  have hskip : normalizePieces (1 + expression.length + 1) ('\x7b' :: (expression ++ ['\x7d']) ++ rest) =
      normalizePieces 0 rest := by
    rw [← normalizePieces_skip ('\x7b' :: (expression ++ ['\x7d'])) rest]
    exact congrArg (normalizePieces · _) (by simp; omega)
  show normalizePieces 0 ('$' :: ('\x7b' :: (expression ++ ['\x7d']) ++ rest)) = _
  simp only [normalizePieces, if_neg hescaped, if_pos hopening, hclosed, hskip]

theorem normalizePieces_escaped {inside rest : Chars} (h : '\x7d' ∉ inside) :
    normalizePieces 0 ('\\' :: (placeholder inside ++ rest)) = (normalizePieces 0 rest).map (.escaped inside :: ·) := by
  have hescaped : escapedOpening <+: '\\' :: (placeholder inside ++ rest) := ⟨_, rfl⟩
  have hclosed : untilBrace ((placeholder inside ++ rest).drop 2) = some inside :=
    untilBrace_eq_some.2 ⟨rest, by simp [placeholder], h⟩
  have hskip : normalizePieces (2 + inside.length + 1) (placeholder inside ++ rest) = normalizePieces 0 rest := by
    rw [← normalizePieces_skip (placeholder inside) rest]
    exact congrArg (normalizePieces · _) (by simp [placeholder]; omega)
  simp only [normalizePieces, if_pos hescaped, hclosed, hskip]

/-- **The second scanner finds the same pieces.** -/
theorem normalizePieces_of_pieces (h : Pieces unicode text pieces) : normalizePieces 0 text = some pieces := by
  induction h with
  | nil => rfl
  | @char c rest pieces hc h ih =>
    have hescaped : ¬escapedOpening <+: c :: rest := by
      rintro ⟨after, hafter⟩
      obtain ⟨rfl, -⟩ := List.cons.inj hafter
      exact hc (by decide)
    have hopening : ¬opening <+: c :: rest := by
      rintro ⟨after, hafter⟩
      obtain ⟨rfl, rfl⟩ := List.cons.inj hafter
      exact h.head rfl
    rw [normalizePieces, if_neg hescaped, if_neg hopening, ih]
    rfl
  | escaped hinside _ ih => rw [normalizePieces_escaped hinside, ih]; rfl
  | @opened rest pieces hrest h ih =>
    have hescaped : escapedOpening <+: '\\' :: (opening ++ rest) := ⟨_, rfl⟩
    have hopen : untilBrace ((opening ++ rest).drop 2) = none := untilBrace_eq_none.2 hrest
    have hskip : normalizePieces 2 (opening ++ rest) = some pieces := ih
    show normalizePieces 0 ('\\' :: (opening ++ rest)) = _
    simp only [normalizePieces, if_pos hescaped, hopen, hskip, Option.map_some]
  | placeholder hname _ ih => rw [normalizePieces_placeholder (not_mem_expression hname), ih]; rfl

/-- A closing brace comes from one in the template, or from a value. -/
theorem Pieces.not_mem_output (h : Pieces unicode text pieces) (htext : '\x7d' ∉ text) (value : Chars → Option Chars) :
    '\x7d' ∉ pieces.flatMap (·.output value) := by
  induction h with
  | nil => simp
  | char hc _ ih =>
    rw [List.mem_cons, not_or] at htext
    rw [List.flatMap_cons, List.mem_append, not_or]
    exact ⟨fun hmem => htext.1 (List.mem_singleton.1 hmem), ih htext.2⟩
  | escaped => exact absurd (by simp [Text.placeholder]) htext
  | opened hrest _ ih =>
    rw [List.flatMap_cons, List.mem_append, not_or]
    exact ⟨by simp [Piece.output, opening], ih hrest⟩
  | placeholder => exact absurd (by simp [Text.placeholder]) htext

/-! ### Replacing names -/

/-- A value that does not begin with a brace and has no beginning of a placeholder in it. -/
def Harmless (value : Chars) : Prop := value.head? ≠ some '\x7b' ∧ ¬opening <:+: value

instance (value : Chars) : Decidable (Harmless value) := inferInstanceAs (Decidable (_ ∧ _))

/-- A path does not begin with an opening brace, whatever values are in it. -/
theorem Pieces.head_output (h : Pieces unicode text pieces) {value : Chars → Option Chars}
    (hvalue : ∀ name text, value name = some text → Harmless text) :
    (pieces.flatMap (·.output value)).head? ≠ some '\x7b' := by
  induction h with
  | nil => simp
  | char hc _ _ =>
    rw [List.flatMap_cons, Piece.output, List.singleton_append, List.head?_cons]
    rintro ⟨⟩
    exact hc (by decide)
  | escaped => simp [Piece.output, Text.placeholder]
  | opened => simp [Piece.output, opening]
  | @placeholder name rest pieces _ _ ih =>
    rw [List.flatMap_cons, Piece.output]
    cases hname : value (parameterName (chars "asset." ++ name)) with
    | none => simp [Text.placeholder]
    | some text =>
      rw [Option.getD_some, List.head?_append]
      have hhead := (hvalue _ _ hname).1
      cases text with
      | nil => exact ih
      | cons c text => exact hhead

/-- In an escaped placeholder, a placeholder of a name begins only at the end. -/
theorem inert_placeholder {name inside : Chars} (hname : '\x7d' ∉ name) (hinside : '\x7d' ∉ inside)
    (hends : ¬placeholder name <:+ placeholder inside) : Inert name (placeholder inside) := by
  intro rest _ i hi hbegins
  have hwhole : ∀ name, placeholder name = ('$' :: '\x7b' :: name) ++ ['\x7d'] := fun _ => rfl
  have hi' : i ≤ ('$' :: '\x7b' :: inside).length := by
    rw [hwhole, List.length_append, List.length_singleton] at hi
    omega
  -- Both texts in front of the first closing brace are the same.
  rw [hwhole, hwhole, List.drop_append_of_le_length hi', List.append_assoc] at hbegins
  have hsame : '$' :: '\x7b' :: name = ('$' :: '\x7b' :: inside).drop i := by
    refine eq_of_prefix_of_closed (by simpa using hname) (fun hmem => ?_) hbegins
    have hinside' := List.mem_of_mem_drop hmem
    simp [hinside] at hinside'
  refine hends ⟨('$' :: '\x7b' :: inside).take i, ?_⟩
  rw [hwhole, hsame, hwhole, ← List.append_assoc, List.take_append_drop]

/-- **Replacing one name** in a path puts its value in and changes nothing else: if no value that is already there makes a
placeholder, and no escaped text ends like the placeholder of the name. -/
theorem replaceAll_output (h : Pieces unicode text pieces) {value : Chars → Option Chars}
    (hvalue : ∀ name text, value name = some text → Harmless text) {name new : Chars} (hname : '\x7d' ∉ name)
    (hnone : value name = none) (hescaped : ∀ inside, Piece.escaped inside ∈ pieces → ¬placeholder name <:+ placeholder inside) :
    replaceAll (placeholder name) new (pieces.flatMap (·.output value)) =
      pieces.flatMap (·.output (Function.update value name (some new))) := by
  refine Replaced.eq (placeholder_ne_nil name) ?_
  induction h with
  | nil => exact .nil
  | @char c rest pieces hc h ih =>
    have hrest := ih fun inside hinside => hescaped inside (List.mem_cons_of_mem _ hinside)
    have hplain : ¬opening <:+: [c] := by
      intro hopening
      have hlength := hopening.length_le
      simp [opening] at hlength
    exact .pass [c] (inert_of_opening hplain name _ (h.head_output hvalue)) hrest
  | @escaped inside rest pieces hinside h ih =>
    have hrest := ih fun inside hinside => hescaped inside (List.mem_cons_of_mem _ hinside)
    have hinert := inert_placeholder hname hinside (hescaped inside (List.mem_cons_self ..))
    exact .pass (placeholder inside) (hinert _ (h.head_output hvalue)) hrest
  | @opened rest pieces hopen h ih =>
    have hrest := ih fun inside hinside => hescaped inside (List.mem_cons_of_mem _ hinside)
    refine .pass opening (fun i hi hbegins => ?_) hrest
    -- A placeholder has a closing brace, and there is none after the opening.
    have hmem : '\x7d' ∈ opening.drop i ++ pieces.flatMap (·.output value) := hbegins.subset (by simp [placeholder])
    rcases List.mem_append.1 hmem with hmem | hmem
    · exact absurd (List.mem_of_mem_drop hmem) (by decide)
    · exact h.not_mem_output hopen value hmem
  | @placeholder other rest pieces hother h ih =>
    have hrest := ih fun inside hinside => hescaped inside (List.mem_cons_of_mem _ hinside)
    rw [List.flatMap_cons, List.flatMap_cons, Piece.output, Piece.output, parameterName, trimPrefix_append]
    by_cases hsame : other = name
    · subst hsame
      rw [hnone, Function.update_self]
      exact .hit hrest
    · rw [Function.update_of_ne hsame]
      refine .pass _ ?_ hrest
      cases hvalue' : value other with
      | none =>
        exact not_placeholder_of_ne (fun heq => hsame heq.symm) hname (not_mem_of_validateDataName hother (by decide))
          (not_mem_of_validateDataName hother (by decide))
      | some text => exact inert_of_opening (hvalue other text hvalue').2 name _ (h.head_output hvalue)

/-- The names in the placeholders are names. -/
theorem Pieces.valid_name (h : Pieces unicode text pieces) {name : Chars} (hname : name ∈ pieces.filterMap Piece.name?) :
    validateDataName unicode name "materialization path_template parameter" = .ok () := by
  induction h with
  | nil => cases hname
  | char _ _ ih | escaped _ _ ih | opened _ _ ih => exact ih hname
  | @placeholder other rest pieces hvalid _ ih =>
    have hother : Piece.name? (.placeholder (chars "asset." ++ other)) = some other := by
      rw [Piece.name?, parameterName, trimPrefix_append]
    rw [List.filterMap_cons_some hother] at hname
    rcases List.mem_cons.1 hname with rfl | hname
    · exact hvalid
    · exact ih hname

/-- Paths with the same values for the names in them are the same. -/
theorem output_congr {value value' : Chars → Option Chars}
    (h : ∀ name ∈ pieces.filterMap Piece.name?, value name = value' name) :
    pieces.flatMap (·.output value) = pieces.flatMap (·.output value') := by
  refine List.flatMap_congr fun piece hpiece => ?_
  cases piece with
  | placeholder expression =>
    rw [Piece.output, Piece.output, h _ (List.mem_filterMap.2 ⟨_, hpiece, rfl⟩)]
  | _ => rfl

/-- **Replacing the names of a list** in a path puts their values in. By induction over the list. -/
theorem replaceNames_output (h : Pieces unicode text pieces) {values : Chars → Option Chars}
    (hvalues : ∀ name text, values name = some text → Harmless text) (names : List Chars) :
    ∀ value : Chars → Option Chars, (∀ name text, value name = some text → Harmless text) → names.Nodup →
      (∀ name ∈ names, '\x7d' ∉ name ∧ value name = none ∧ (values name).isSome ∧
        ∀ inside, Piece.escaped inside ∈ pieces → ¬placeholder name <:+ placeholder inside) →
      replaceNames values names (pieces.flatMap (·.output value)) =
        pieces.flatMap (·.output fun name => if name ∈ names then values name else value name) := by
  induction names with
  | nil =>
    intro value _ _ _
    simp [replaceNames]
  | cons name names ih =>
    intro value hvalue hnodup hnames
    obtain ⟨hname, hnone, hsome, hescaped⟩ := hnames name (List.mem_cons_self ..)
    obtain ⟨new, hnew⟩ := Option.isSome_iff_exists.1 hsome
    have hstep := @replaceAll_output _ _ _ h _ hvalue name new hname hnone hescaped
    have hupdate : ∀ other text, Function.update value name (some new) other = some text → Harmless text := by
      intro other text hother
      by_cases hsame : other = name
      · subst hsame
        rw [Function.update_self] at hother
        exact hvalues other text (hnew.trans hother)
      · rw [Function.update_of_ne hsame] at hother
        exact hvalue other text hother
    have hrest := ih (Function.update value name (some new)) hupdate (List.nodup_cons.1 hnodup).2 fun other hother => by
      have hne : other ≠ name := fun heq => (List.nodup_cons.1 hnodup).1 (heq ▸ hother)
      obtain ⟨h₁, h₂, h₃⟩ := hnames other (List.mem_cons_of_mem _ hother)
      exact ⟨h₁, by rw [Function.update_of_ne hne, h₂], h₃⟩
    rw [replaceNames, List.foldl_cons, hnew]
    show replaceNames values names (replaceAll (placeholder name) new _) = _
    rw [hstep, hrest]
    congr 2
    funext piece
    congr 1
    funext other
    by_cases hsame : other = name
    · subst hsame
      simp [(List.nodup_cons.1 hnodup).1, hnew]
    · simp [hsame]

/-- **The names that are left are those without a value, in the order of their first occurrences.** -/
theorem requiredNames_eq (value : Chars → Option Chars) (pieces : List Piece) (seen : List Chars) :
    requiredNames value seen pieces =
      ((pieces.filterMap Piece.name?).filter fun name => (value name).isNone && !seen.contains name).eraseDups := by
  induction pieces generalizing seen with
  | nil => rfl
  | cons piece pieces ih =>
    cases hname : piece.name? with
    | none =>
      rw [requiredNames, List.filterMap_cons_none hname, hname]
      exact ih seen
    | some name =>
      rw [requiredNames, List.filterMap_cons_some hname, hname]
      dsimp only
      by_cases hskip : ((value name).isSome || seen.contains name) = true
      · rw [if_pos hskip, ih, List.filter_cons_of_neg]
        rcases Bool.or_eq_true_iff.1 hskip with hsome | hseen
        · simp [Option.isSome_iff_ne_none.1 hsome]
        · simp [List.contains_iff_mem.1 hseen]
      · rw [if_neg hskip, ih, List.filter_cons_of_pos, List.eraseDups_cons, List.filter_filter]
        · congr 3
          funext other
          rw [Bool.eq_iff_iff]
          simp [and_assoc, and_comm]
        · simpa [Option.isSome_iff_ne_none] using hskip

theorem mem_requiredNames {value : Chars → Option Chars} {seen : List Chars} {name : Chars} :
    name ∈ requiredNames value seen pieces ↔ name ∈ pieces.filterMap Piece.name? ∧ value name = none ∧ name ∉ seen := by
  rw [requiredNames_eq, List.mem_eraseDups, List.mem_filter]
  simp

theorem requiredNames_nodup (value : Chars → Option Chars) (pieces : List Piece) (seen : List Chars) :
    (requiredNames value seen pieces).Nodup := by
  induction pieces generalizing seen with
  | nil => exact List.nodup_nil
  | cons piece pieces ih =>
    rw [requiredNames]
    split
    · exact ih seen
    · split_ifs
      · exact ih seen
      · exact List.nodup_cons.2 ⟨fun hmem => (mem_requiredNames.1 hmem).2.2 (by simp), ih _⟩

end

section

variable {ν : Type} {unicode : Unicode} (print : ν → Chars)

/-- The values of some of the names. -/
theorem assigned_filter (parameters : List (Chars × ν)) (isFixed : Chars → Bool) (name : Chars) :
    assigned print (parameters.filter (isFixed ·.1)) name = if isFixed name then assigned print parameters name else none := by
  induction parameters with
  | nil => simp [assigned]
  | cons parameter parameters ih =>
    obtain ⟨other, value⟩ := parameter
    unfold assigned at ih ⊢
    by_cases hsame : name = other
    · subst hsame
      cases hfixed : isFixed name with
      | true => simp [hfixed]
      | false =>
        rw [hfixed] at ih
        simpa [hfixed] using ih
    · have hother : (name == other) = false := beq_false_of_ne hsame
      cases hfixed : isFixed other with
      | true => simpa [hfixed, List.lookup_cons, hother] using ih
      | false => simpa [hfixed, List.lookup_cons, hother] using ih

theorem harmless_assigned {parameters : List (Chars × ν)} (h : ∀ parameter ∈ parameters, Harmless (print parameter.2))
    {name text : Chars} (htext : assigned print parameters name = some text) : Harmless text := by
  obtain ⟨value, hvalue, rfl⟩ := Option.map_eq_some_iff.1 htext
  exact h (name, value) (mem_of_lookup hvalue)

/-- What normalizing gives, from the pieces. -/
theorem normalize_of_pieces {value : Chars} {parsed : MaterializationPathTemplate} {pieces : List Piece}
    (h : parseMaterializationPathTemplate unicode value = .ok parsed) (hpieces : parsePieces unicode 0 value = .ok pieces)
    (parameters : List (Chars × ν)) :
    normalizeMaterializationOutputPathTemplate unicode print value parameters =
      .ok (pieces.flatMap (·.output (assigned print parameters)), requiredNames (assigned print parameters) [] pieces) := by
  have hmade : Pieces unicode value pieces := pieces_of_parsePieces hpieces
  rw [normalizeMaterializationOutputPathTemplate, h, normalizePieces_of_pieces hmade]
  rfl

end

namespace Sample

/-- A path with an escaped placeholder, and one of the same name. -/
def escapedRegion : Chars := chars "\\$\x7bregion\x7d/$\x7basset.region\x7d"

/-- A path with two parameters. -/
def tilePath : Chars := chars "\\$\x7bid\x7d/$\x7basset.region\x7d/$\x7basset.year\x7d-$\x7basset.region\x7d.tif"

end Sample

end GoEtl.Model
