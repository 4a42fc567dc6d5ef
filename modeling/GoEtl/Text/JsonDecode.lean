import GoEtl.Text.JsonValue

/-!
# Reading JSON documents

What `encoding/json` reads a text as, with `UseNumber`: numbers are kept as texts, escapes in strings are resolved, half of
a surrogate pair is read as U+FFFD, and of two members of an object with the same name the second one counts. A document
may be nested up to a limit.

Reading what `JsonValue.render` writes gives the value back (`decode_render`).
-/

namespace GoEtl.Text.JsonValue

/-! ### Strings -/

/-- The white space of JSON. -/
def isJsonSpace (c : Char) : Bool := c = ' ' || c = '\t' || c = '\n' || c = '\r'

/-- The text after white space. -/
def skipSpace (text : Chars) : Chars := text.dropWhile isJsonSpace

/-- The value of a hexadecimal digit. -/
def hexValue (c : Char) : Option ℕ :=
  if '0' ≤ c ∧ c ≤ '9' then some (c.toNat - 48)
  else if 'a' ≤ c ∧ c ≤ 'f' then some (c.toNat - 87)
  else if 'A' ≤ c ∧ c ≤ 'F' then some (c.toNat - 55)
  else none

/-- `getu4`: four hexadecimal digits. -/
def readHex : Chars → Option ℕ
  | a :: b :: c :: d :: _ => do
    let a ← hexValue a
    let b ← hexValue b
    let c ← hexValue c
    let d ← hexValue d
    pure (((a * 16 + b) * 16 + c) * 16 + d)
  | _ => none

/-- `utf16.DecodeRune`, where the two halves are a pair. -/
def decodePair (first second : ℕ) : Option Char :=
  if 0xd800 ≤ first ∧ first < 0xdc00 ∧ 0xdc00 ≤ second ∧ second < 0xe000 then
    some (Char.ofNat ((first - 0xd800) * 0x400 + (second - 0xdc00) + 0x10000))
  else none

/-- The second half of a pair, in an escape of its own. -/
def readPair (first : ℕ) : Chars → Option Char
  | '\\' :: 'u' :: rest => (readHex rest).bind (decodePair first)
  | _ => none

/-- The escapes of one letter. -/
def simpleEscape (c : Char) : Option Char :=
  if c = '"' ∨ c = '\\' ∨ c = '/' then some c
  else if c = 'b' then some '\x08'
  else if c = 'f' then some '\x0c'
  else if c = 'n' then some '\n'
  else if c = 'r' then some '\r'
  else if c = 't' then some '\t'
  else none

/-- The character that is written with a backslash and what follows, and how long that is. -/
def readEscape : Chars → Option (Char × ℕ)
  | 'u' :: rest =>
    (readHex rest).map fun first =>
      if 0xd800 ≤ first ∧ first < 0xe000 then
        match readPair first (rest.drop 4) with
        | some c => (c, 11)
        | none => ('\ufffd', 5)
      else (Char.ofNat first, 5)
  | c :: _ => (simpleEscape c).map fun c => (c, 1)
  | [] => none

/-- The characters up to the closing quote and the text after it, after some characters that belong to an escape. -/
def parseChars : ℕ → Chars → Option (Chars × Chars)
  | _, [] => none
  | left + 1, _ :: rest => parseChars left rest
  | 0, c :: rest =>
    if c = '"' then some ([], rest)
    else if c = '\\' then
      match readEscape rest with
      | none => none
      | some (r, size) => (parseChars size rest).map fun read => (r :: read.1, read.2)
    else if c.toNat < 32 then none
    else (parseChars 0 rest).map fun read => (c :: read.1, read.2)

/-! ### Numbers -/

/-- An optional part of a number: digits after a sign, of which there is at least one. -/
def readDigits (text : Chars) : Option (Chars × Chars) :=
  if text.takeWhile (·.isDigit) = [] then none else some (text.takeWhile (·.isDigit), text.dropWhile (·.isDigit))

/-- The digits in front of the point: none may follow a zero. -/
def readWhole : Chars → Option (Chars × Chars)
  | '0' :: rest => some (['0'], rest)
  | text => readDigits text

/-- The digits after a point. -/
def readFraction : Chars → Option (Chars × Chars)
  | '.' :: rest => (readDigits rest).map fun read => ('.' :: read.1, read.2)
  | text => some ([], text)

/-- The sign and digits of an exponent. -/
def readExponent : Chars → Option (Chars × Chars)
  | e :: rest =>
    if e = 'e' ∨ e = 'E' then
      match rest with
      | sign :: digits =>
        if sign = '+' ∨ sign = '-' then (readDigits digits).map fun read => (e :: sign :: read.1, read.2)
        else (readDigits rest).map fun read => (e :: read.1, read.2)
      | [] => none
    else some ([], e :: rest)
  | [] => some ([], [])

/-- A number without a sign. -/
def readUnsigned (text : Chars) : Option (Chars × Chars) := do
  let (whole, rest) ← readWhole text
  let (fraction, rest) ← readFraction rest
  let (exponent, rest) ← readExponent rest
  pure (whole ++ fraction ++ exponent, rest)

/-- A number. -/
def readNumber : Chars → Option (Chars × Chars)
  | '-' :: rest => (readUnsigned rest).map fun read => ('-' :: read.1, read.2)
  | text => readUnsigned text

/-! ### Values -/

section

variable {α : Type}

/-- One element or more, with commas between them, and the closing bracket. -/
def parseSequence (element : Chars → Option (α × Chars)) (close : Char) : ℕ → Chars → Option (List α × Chars)
  | 0, _ => none
  | fuel + 1, text =>
    match element text with
    | none => none
    | some (x, rest) =>
      match skipSpace rest with
      | [] => none
      | c :: rest =>
        if c = ',' then (parseSequence element close fuel rest).map fun read => (x :: read.1, read.2)
        else if c = close then some ([x], rest)
        else none

/-- The elements up to a closing bracket. -/
def parseElements (element : Chars → Option (α × Chars)) (close : Char) (text : Chars) : Option (List α × Chars) :=
  match skipSpace text with
  | [] => none
  | c :: rest => if c = close then some ([], rest) else parseSequence element close text.length text

end

/-- A member of an object. -/
def parseField (value : Chars → Option (JsonValue × Chars)) (text : Chars) : Option ((Chars × JsonValue) × Chars) :=
  match skipSpace text with
  | '"' :: rest => do
    let (name, rest) ← parseChars 0 rest
    match skipSpace rest with
    | ':' :: rest => (value rest).map fun read => ((name, read.1), read.2)
    | _ => none
  | _ => none

/-- `m[name] = value`. -/
def putField {α : Type} (fields : List (Chars × α)) (field : Chars × α) : List (Chars × α) :=
  fields.filter (·.1 ≠ field.1) ++ [field]

/-- The value that a text begins with, with what is inside of brackets. -/
def valueStep (inner : Option (Chars → Option (JsonValue × Chars))) (text : Chars) : Option (JsonValue × Chars) :=
  match skipSpace text with
  | [] => none
  | c :: rest =>
    if c = '"' then (parseChars 0 rest).map fun read => (.string read.1, read.2)
    else if c = '[' then
      inner.bind fun value => (parseElements value ']' rest).map fun read => (.array read.1, read.2)
    else if c = '\x7b' then
      inner.bind fun value =>
        (parseElements (parseField value) '\x7d' rest).map fun read => (.object (read.1.foldl putField []), read.2)
    else if chars "true" <+: c :: rest then some (.bool true, rest.drop 3)
    else if chars "false" <+: c :: rest then some (.bool false, rest.drop 4)
    else if chars "null" <+: c :: rest then some (.null, rest.drop 3)
    else (readNumber (c :: rest)).map fun read => (.number read.1, read.2)

/-- The value that a text begins with, nested up to a limit. -/
def parseValue : ℕ → Chars → Option (JsonValue × Chars)
  | 0 => valueStep none
  | limit + 1 => valueStep (some (parseValue limit))

/-- A document: one value, and nothing but white space after it. -/
def decode (limit : ℕ) (text : Chars) : Option JsonValue :=
  match parseValue limit text with
  | none => none
  | some (value, rest) => if skipSpace rest = [] then some value else none

example : decode 2 (chars " \x7b\"a\": [1, -2.5e+3], \"b\":\"\\u0041\\ud83d\\ude00\\ud800\", \"a\": null \x7d ") =
    some (.object [(chars "b", .string ['A', '😀', '\ufffd']), (chars "a", .null)]) := by decide +kernel

/-! ### Reading a string back -/

theorem hexValue_hexDigit (n : ℕ) : hexValue (hexDigit n) = some (n % 16) := by
  have hdigits : ∀ m < 16, hexValue (Nat.digitChar m) = some m := by decide
  exact hdigits (n % 16) (Nat.mod_lt n (by decide))

/-- An escape of four digits. -/
theorem readEscape_hex {n : ℕ} (hn : n < 0xd800) (rest : Chars) :
    readEscape ('u' :: hexDigit (n / 4096) :: hexDigit (n / 256) :: hexDigit (n / 16) :: hexDigit n :: rest) =
      some (Char.ofNat n, 5) := by
  have hvalue : ((n / 4096 % 16 * 16 + n / 256 % 16) * 16 + n / 16 % 16) * 16 + n % 16 = n := by omega
  simp only [readEscape, readHex, hexValue_hexDigit, Option.bind_eq_bind, Option.bind_some, Option.pure_def, hvalue,
    Option.map_some, if_neg (show ¬(0xd800 ≤ n ∧ n < 0xe000) by omega)]

/-- **A character is read back from its text.** -/
theorem parseChars_renderChar (c : Char) (rest : Chars) :
    parseChars 0 (renderChar c ++ rest) = (parseChars 0 rest).map fun read => (c :: read.1, read.2) := by
  unfold renderChar
  split_ifs with hquote hn hr ht hb hf hhex
  · rcases hquote with rfl | rfl <;> rfl
  · subst hn
    rfl
  · subst hr
    rfl
  · subst ht
    rfl
  · subst hb
    rfl
  · subst hf
    rfl
  · have hsmall : c.toNat < 0xd800 := by
      rcases hhex with h | rfl | rfl | rfl | rfl | rfl
      · omega
      all_goals decide
    simp only [List.cons_append, List.nil_append]
    rw [parseChars, if_neg (by decide), if_pos rfl, readEscape_hex hsmall, Char.ofNat_toNat]
    rfl
  · obtain ⟨hquote, hbackslash⟩ := not_or.1 hquote
    rw [List.singleton_append, parseChars, if_neg hquote, if_neg hbackslash, if_neg (not_or.1 hhex).1]

theorem parseChars_render (text rest : Chars) : parseChars 0 (text.flatMap renderChar ++ '"' :: rest) = some (text, rest) := by
  induction text with
  | nil => rfl
  | cons c text ih => rw [List.flatMap_cons, List.append_assoc, parseChars_renderChar, ih]; rfl

/-! ### Reading a number back -/

/-- What may come after a number. -/
def Follows (rest : Chars) : Prop := ∀ c ∈ rest.head?, c.isDigit = false ∧ c ≠ '.' ∧ c ≠ 'e' ∧ c ≠ 'E'

theorem follows_nil : Follows [] := by simp [Follows]

variable {rest : Chars} {c : Char}

theorem follows_cons (h : c ∈ [',', ']', '\x7d']) : Follows (c :: rest) := by
  intro d hd
  rw [List.head?_cons, Option.mem_some_iff] at hd
  subst hd
  simp only [List.mem_cons, List.not_mem_nil, or_false] at h
  rcases h with rfl | rfl | rfl <;> decide

/-- The text of a number, that is read up to its end. -/
structure NumberText (text : Chars) : Prop where
  head : ∃ c more, text = c :: more ∧ (c = '-' ∨ c.isDigit = true)
  read : ∀ rest, Follows rest → readNumber (text ++ rest) = some (text, rest)

theorem NumberText.head_ne {more : Chars} (h : NumberText (c :: more)) {d : Char} (hd : d.isDigit = false)
    (hminus : d ≠ '-') : c ≠ d := by
  rintro rfl
  obtain ⟨first, rest, hfirst, hc⟩ := h.head
  obtain ⟨rfl, -⟩ := List.cons.inj hfirst
  rcases hc with hc | hc
  · exact hminus hc
  · rw [hd] at hc
    cases hc

theorem readDigits_append {digits : Chars} (hne : digits ≠ []) (hdigits : ∀ c ∈ digits, c.isDigit = true)
    (hrest : Follows rest) : readDigits (digits ++ rest) = some (digits, rest) := by
  have hstop : rest.takeWhile (·.isDigit) = [] ∧ rest.dropWhile (·.isDigit) = rest := by
    cases rest with
    | nil => exact ⟨rfl, rfl⟩
    | cons c rest => simp [(hrest c rfl).1]
  rw [readDigits, List.takeWhile_append_of_pos hdigits, List.dropWhile_append_of_pos hdigits, hstop.1, hstop.2,
    List.append_nil, if_neg hne]

theorem readFraction_follows (h : Follows rest) : readFraction rest = some ([], rest) := by
  unfold readFraction
  split
  · exact absurd rfl (h _ rfl).2.1
  · rfl

theorem readExponent_follows (h : Follows rest) : readExponent rest = some ([], rest) := by
  cases rest with
  | nil => rfl
  | cons c rest => exact if_neg (not_or.2 (h c rfl).2.2)

/-- **Digits without a zero in front are a number**, with or without a sign. -/
theorem numberText_of_digits {digits : Chars} (hne : digits ≠ []) (hdigits : ∀ c ∈ digits, c.isDigit = true)
    (hzero : digits.head? = some '0' → digits = ['0']) : NumberText digits ∧ NumberText ('-' :: digits) := by
  obtain ⟨c, more, rfl⟩ := List.exists_cons_of_ne_nil hne
  have hc : c.isDigit = true := hdigits c (List.mem_cons_self ..)
  have hunsigned : ∀ rest, Follows rest → readUnsigned (c :: more ++ rest) = some (c :: more, rest) := by
    intro rest hrest
    have hwhole : readWhole (c :: more ++ rest) = some (c :: more, rest) := by
      unfold readWhole
      split
      · rename_i tail heq
        obtain ⟨rfl, rfl⟩ := List.cons.inj heq
        obtain ⟨-, rfl⟩ := List.cons.inj (hzero rfl)
        rfl
      · exact readDigits_append hne hdigits hrest
    rw [readUnsigned, hwhole]
    simp [readFraction_follows hrest, readExponent_follows hrest]
  refine ⟨⟨⟨c, more, rfl, .inr hc⟩, fun rest hrest => ?_⟩, ⟨⟨'-', c :: more, rfl, .inl rfl⟩, fun rest hrest => ?_⟩⟩
  · unfold readNumber
    split
    · rename_i tail heq
      obtain ⟨rfl, -⟩ := List.cons.inj heq
      exact absurd hc (by decide)
    · exact hunsigned rest hrest
  · rw [List.cons_append, readNumber, hunsigned rest hrest]
    rfl

/-! ### Reading a value back -/

mutual

/-- How deep brackets are nested. -/
def depth : JsonValue → ℕ
  | .array items => depthItems items + 1
  | .object fields => depthFields fields + 1
  | _ => 0

/-- The depth of the deepest item. -/
def depthItems : List JsonValue → ℕ
  | [] => 0
  | item :: items => max item.depth (depthItems items)

/-- The depth of the deepest member. -/
def depthFields : List (Chars × JsonValue) → ℕ
  | [] => 0
  | (_, value) :: fields => max value.depth (depthFields fields)

end

mutual

/-- The numbers are numbers, and no name occurs twice in an object. -/
def Readable : JsonValue → Prop
  | .number text => NumberText text
  | .array items => ReadableItems items
  | .object fields => (fields.map Prod.fst).Nodup ∧ ReadableFields fields
  | _ => True

/-- The items are readable. -/
def ReadableItems : List JsonValue → Prop
  | [] => True
  | item :: items => item.Readable ∧ ReadableItems items

/-- The members are readable. -/
def ReadableFields : List (Chars × JsonValue) → Prop
  | [] => True
  | (_, value) :: fields => value.Readable ∧ ReadableFields fields

end

theorem readableFields_iff {fields : List (Chars × JsonValue)} :
    ReadableFields fields ↔ ∀ field ∈ fields, field.2.Readable := by
  induction fields with
  | nil => simp [ReadableFields]
  | cons field fields ih => rw [ReadableFields, List.forall_mem_cons, ih]

variable {limit : ℕ}

theorem depthFields_le {fields : List (Chars × JsonValue)} :
    depthFields fields ≤ limit ↔ ∀ field ∈ fields, field.2.depth ≤ limit := by
  induction fields with
  | nil => simp [depthFields]
  | cons field fields ih => rw [depthFields, Nat.max_le, List.forall_mem_cons, ih]

section

variable {α : Type}

/-- Texts with commas between them. -/
def joined (text : α → Chars) : List α → Chars
  | [] => []
  | [x] => text x
  | x :: next :: xs => text x ++ ',' :: joined text (next :: xs)

theorem length_le_joined (text : α → Chars) (xs : List α) : xs.length ≤ (joined text xs).length + 1 := by
  fun_induction joined text xs with
  | case1 => simp
  | case2 x => simp
  | case3 x next xs ih =>
    simp only [List.length_cons, List.length_append] at ih ⊢
    omega

variable {element : Chars → Option (α × Chars)} {close : Char} {text : α → Chars}

theorem skipSpace_cons (h : isJsonSpace c = false) : skipSpace (c :: rest) = c :: rest := by
  simp [skipSpace, h]

/-- **Elements are read back one by one**, if each is read up to what may follow it. -/
theorem parseSequence_joined (hclose : close ∈ [']', '\x7d']) (xs : List α)
    (h : ∀ x ∈ xs, ∀ rest, Follows rest → element (text x ++ rest) = some (x, rest)) (hne : xs ≠ []) (fuel : ℕ)
    (hfuel : xs.length ≤ fuel) (rest : Chars) :
    parseSequence element close fuel (joined text xs ++ close :: rest) = some (xs, rest) := by
  induction xs generalizing fuel with
  | nil => exact absurd rfl hne
  | cons x xs ih =>
    obtain ⟨fuel, rfl⟩ : ∃ n, fuel = n + 1 := ⟨fuel - 1, by simp only [List.length_cons] at hfuel; omega⟩
    have hx := h x (List.mem_cons_self ..)
    cases xs with
    | nil =>
      have hfollows : Follows (close :: rest) := follows_cons (List.mem_cons_of_mem _ hclose)
      have hspace : isJsonSpace close = false ∧ close ≠ ',' := by
        simp only [List.mem_cons, List.not_mem_nil, or_false] at hclose
        rcases hclose with rfl | rfl <;> decide
      simp only [joined, parseSequence, hx _ hfollows, skipSpace_cons hspace.1, if_neg hspace.2, if_pos]
    | cons next xs =>
      have hfollows : Follows (',' :: (joined text (next :: xs) ++ close :: rest)) := follows_cons (by decide)
      have hrest := ih (fun y hy => h y (List.mem_cons_of_mem _ hy)) (by simp) fuel (by simpa using hfuel)
      simp only [joined, List.append_assoc, List.cons_append, parseSequence, hx _ hfollows,
        skipSpace_cons (show isJsonSpace ',' = false by decide), if_pos, hrest, Option.map_some]

theorem parseElements_joined (hclose : close ∈ [']', '\x7d']) (xs : List α)
    (h : ∀ x ∈ xs, ∀ rest, Follows rest → element (text x ++ rest) = some (x, rest))
    (hhead : ∀ x ∈ xs, ∃ c more, text x = c :: more ∧ isJsonSpace c = false ∧ c ≠ close) (rest : Chars) :
    parseElements element close (joined text xs ++ close :: rest) = some (xs, rest) := by
  cases xs with
  | nil =>
    have hspace : isJsonSpace close = false := by
      simp only [List.mem_cons, List.not_mem_nil, or_false] at hclose
      rcases hclose with rfl | rfl <;> decide
    simp only [joined, List.nil_append, parseElements, skipSpace_cons hspace, if_pos]
  | cons x xs =>
    obtain ⟨c, more, htext, hspace, hne⟩ := hhead x (List.mem_cons_self ..)
    obtain ⟨tail, htail⟩ : ∃ tail, joined text (x :: xs) ++ close :: rest = c :: tail := by
      cases xs with
      | nil => exact ⟨_, by rw [joined, htext, List.cons_append]⟩
      | cons next xs => exact ⟨_, by rw [joined, htext, List.cons_append, List.cons_append]⟩
    have hlength := length_le_joined text (x :: xs)
    have hparsed := parseSequence_joined hclose (x :: xs) h (by simp) (joined text (x :: xs) ++ close :: rest).length
      (by simp only [List.length_append, List.length_cons] at hlength ⊢; omega) rest
    rw [htail] at hparsed ⊢
    rw [parseElements, skipSpace_cons hspace]
    simp only [if_neg hne]
    exact hparsed

end

/-- The text of a member. -/
def renderField (field : Chars × JsonValue) : Chars := renderString field.1 ++ ':' :: field.2.render

theorem renderItems_eq (items : List JsonValue) : renderItems items = joined render items := by
  induction items with
  | nil => rfl
  | cons item items ih =>
    cases items with
    | nil => rfl
    | cons next items => rw [renderItems, joined, ih]

theorem renderFields_eq (fields : List (Chars × JsonValue)) : renderFields fields = joined renderField fields := by
  induction fields with
  | nil => rfl
  | cons field fields ih =>
    cases fields with
    | nil => rfl
    | cons next fields => rw [renderFields, joined, ih, renderField]

variable {value : JsonValue}

/-- The text of a value begins with a character that is no white space and no closing bracket. -/
theorem render_head (h : value.Readable) :
    ∃ c more, value.render = c :: more ∧ isJsonSpace c = false ∧ c ≠ ']' := by
  cases value with
  | null => exact ⟨'n', _, rfl, by decide, by decide⟩
  | bool value => cases value <;> exact ⟨_, _, rfl, by decide, by decide⟩
  | number text =>
    obtain ⟨c, more, rfl, -⟩ := NumberText.head h
    have hne : ∀ d : Char, d.isDigit = false → d ≠ '-' → c ≠ d := fun _ => NumberText.head_ne h
    refine ⟨c, more, rfl, ?_, hne _ (by decide) (by decide)⟩
    simp [isJsonSpace, hne ' ' (by decide) (by decide), hne '\t' (by decide) (by decide), hne '\n' (by decide) (by decide),
      hne '\r' (by decide) (by decide)]
  | string text => exact ⟨'"', _, rfl, by decide, by decide⟩
  | array items => exact ⟨'[', _, rfl, by decide, by decide⟩
  | object fields => exact ⟨'\x7b', _, rfl, by decide, by decide⟩

/-- Members with different names are put in one after the other. -/
theorem foldl_putField {α : Type} (fields : List (Chars × α)) :
    ∀ done : List (Chars × α), ((done ++ fields).map Prod.fst).Nodup → fields.foldl putField done = done ++ fields := by
  induction fields with
  | nil => simp
  | cons field fields ih =>
    intro done hnodup
    have hnew : done.filter (·.1 ≠ field.1) = done := by
      rw [List.filter_eq_self]
      intro other hother
      rw [List.map_append] at hnodup
      have hne := (List.nodup_append.1 hnodup).2.2 other.1 (List.mem_map_of_mem hother) field.1 (List.mem_cons_self ..)
      simpa using hne
    rw [List.foldl_cons, putField, hnew, ih _ (by simpa using hnodup), List.append_assoc]
    rfl

theorem parseField_render {value : Chars → Option (JsonValue × Chars)} {field : Chars × JsonValue}
    (h : value (field.2.render ++ rest) = some (field.2, rest)) :
    parseField value (renderField field ++ rest) = some (field, rest) := by
  have htext : renderField field ++ rest =
      '"' :: (field.1.flatMap renderChar ++ '"' :: ':' :: (field.2.render ++ rest)) := by
    simp [renderField, renderString]
  rw [htext, parseField, skipSpace_cons (by decide)]
  simp only [parseChars_render, Option.bind_eq_bind, Option.bind_some, skipSpace_cons (show isJsonSpace ':' = false by decide),
    h, Option.map_some]

variable {text : Chars}

/-- The limit does not matter for a value without brackets. -/
theorem parseValue_of_step {result : Option (JsonValue × Chars)} (h : ∀ inner, valueStep inner text = result)
    (limit : ℕ) : parseValue limit text = result := by
  cases limit <;> exact h _

theorem valueStep_number (h : NumberText text) (hrest : Follows rest)
    (inner : Option (Chars → Option (JsonValue × Chars))) : valueStep inner (text ++ rest) = some (.number text, rest) := by
  obtain ⟨c, more, htext, hspace, -⟩ := render_head (show (JsonValue.number text).Readable from h)
  have htext' : text = c :: more := htext
  subst htext'
  have hne : ∀ d : Char, d.isDigit = false → d ≠ '-' → c ≠ d := fun _ => h.head_ne
  have hword : ∀ (d : Char) (word : Chars), d.isDigit = false → d ≠ '-' → ¬d :: word <+: c :: (more ++ rest) := by
    intro d word hd hminus hbegins
    exact hne d hd hminus (List.cons_prefix_cons.1 hbegins).1.symm
  have hread := h.read rest hrest
  rw [List.cons_append] at hread ⊢
  rw [valueStep, skipSpace_cons hspace]
  simp only [if_neg (hne '"' (by decide) (by decide)), if_neg (hne '[' (by decide) (by decide)),
    if_neg (hne '\x7b' (by decide) (by decide)),
    if_neg (show ¬chars "true" <+: _ from hword 't' _ (by decide) (by decide)),
    if_neg (show ¬chars "false" <+: _ from hword 'f' _ (by decide) (by decide)),
    if_neg (show ¬chars "null" <+: _ from hword 'n' _ (by decide) (by decide)), hread, Option.map_some]

mutual

/-- **A value is read back from its text.** -/
theorem parseValue_render : ∀ (value : JsonValue) (limit : ℕ), value.Readable → value.depth ≤ limit →
    ∀ rest, Follows rest → parseValue limit (value.render ++ rest) = some (value, rest)
  | .null, limit, _, _, rest, _ => parseValue_of_step (fun _ => rfl) limit
  | .bool true, limit, _, _, rest, _ => parseValue_of_step (fun _ => rfl) limit
  | .bool false, limit, _, _, rest, _ => parseValue_of_step (fun _ => rfl) limit
  | .number text, limit, h, _, rest, hrest => parseValue_of_step (valueStep_number h hrest) limit
  | .string text, limit, _, _, rest, _ => by
    have htext : (JsonValue.string text).render ++ rest = '"' :: (text.flatMap renderChar ++ '"' :: rest) := by
      simp [render, renderString]
    refine parseValue_of_step (fun inner => ?_) limit
    rw [htext, valueStep, skipSpace_cons (by decide)]
    simp only [if_pos, parseChars_render, Option.map_some]
  | .array items, 0, _, hdepth, _, _ => by simp [depth] at hdepth
  | .array items, limit + 1, h, hdepth, rest, _ => by
    have hitems := parseValue_renderItems items limit h (by simpa [depth] using hdepth)
    have helements := parseElements_joined (by decide) items (fun item hitem => (hitems item hitem).2)
      (fun item hitem => render_head (hitems item hitem).1) rest
    have htext : (JsonValue.array items).render ++ rest = '[' :: (joined render items ++ ']' :: rest) := by
      simp [render, renderItems_eq]
    rw [htext, parseValue, valueStep, skipSpace_cons (by decide)]
    simp only [if_neg (show '[' ≠ '"' by decide), if_pos, Option.bind_some, helements, Option.map_some]
  | .object fields, 0, _, hdepth, _, _ => by simp [depth] at hdepth
  | .object fields, limit + 1, h, hdepth, rest, _ => by
    have hfields := parseValue_renderFields fields limit h.2 (by simpa [depth] using hdepth)
    have helements := parseElements_joined (show '\x7d' ∈ [']', '\x7d'] by decide) fields
      (fun field hfield rest hrest => parseField_render (hfields field hfield rest hrest))
      (fun field _ => ⟨'"', _, rfl, by decide, by decide⟩) rest
    have htext : (JsonValue.object fields).render ++ rest = '\x7b' :: (joined renderField fields ++ '\x7d' :: rest) := by
      simp [render, renderFields_eq]
    have hput : fields.foldl putField [] = fields := foldl_putField fields [] (by simpa using h.1)
    rw [htext, parseValue, valueStep, skipSpace_cons (by decide)]
    simp only [if_neg (show '\x7b' ≠ '"' by decide), if_neg (show '\x7b' ≠ '[' by decide), if_pos, Option.bind_some,
      helements, Option.map_some, hput]

theorem parseValue_renderItems : ∀ (items : List JsonValue) (limit : ℕ), ReadableItems items → depthItems items ≤ limit →
    ∀ item ∈ items, item.Readable ∧
      ∀ rest, Follows rest → parseValue limit (item.render ++ rest) = some (item, rest)
  | [], _, _, _ => by simp
  | item :: items, limit, h, hdepth => by
    rw [depthItems, Nat.max_le] at hdepth
    rw [List.forall_mem_cons]
    exact ⟨⟨h.1, parseValue_render item limit h.1 hdepth.1⟩, parseValue_renderItems items limit h.2 hdepth.2⟩

theorem parseValue_renderFields : ∀ (fields : List (Chars × JsonValue)) (limit : ℕ), ReadableFields fields →
    depthFields fields ≤ limit →
    ∀ field ∈ fields, ∀ rest, Follows rest → parseValue limit (field.2.render ++ rest) = some (field.2, rest)
  | [], _, _, _ => by simp
  | (name, value) :: fields, limit, h, hdepth => by
    rw [depthFields, Nat.max_le] at hdepth
    rw [List.forall_mem_cons]
    exact ⟨parseValue_render value limit h.1 hdepth.1, parseValue_renderFields fields limit h.2 hdepth.2⟩

end

/-- **Reading what has been written gives the value back.** -/
theorem decode_render (h : value.Readable) (hdepth : value.depth ≤ limit) :
    decode limit value.render = some value := by
  have hread := parseValue_render value limit h hdepth [] follows_nil
  rw [List.append_nil] at hread
  rw [decode, hread]
  rfl

/-! ### Texts without escapes -/

mutual

/-- The strings in a value, and the names of members. -/
def strings : JsonValue → List Chars
  | .string text => [text]
  | .array items => stringsOfItems items
  | .object fields => stringsOfFields fields
  | _ => []

/-- The strings in the items. -/
def stringsOfItems : List JsonValue → List Chars
  | [] => []
  | item :: items => item.strings ++ stringsOfItems items

/-- The strings in the members, and their names. -/
def stringsOfFields : List (Chars × JsonValue) → List Chars
  | [] => []
  | (name, value) :: fields => name :: value.strings ++ stringsOfFields fields

end

theorem stringsOfItems_eq (items : List JsonValue) : stringsOfItems items = items.flatMap strings := by
  induction items with
  | nil => rfl
  | cons item items ih => rw [stringsOfItems, ih, List.flatMap_cons]

theorem stringsOfFields_eq (fields : List (Chars × JsonValue)) :
    stringsOfFields fields = fields.flatMap fun field => field.1 :: field.2.strings := by
  induction fields with
  | nil => rfl
  | cons field fields ih => rw [stringsOfFields, ih, List.flatMap_cons]

/-- What has been read from a text: parts of it, and a rest of it. -/
def Parts (text : Chars) (read : List Chars) (rest : Chars) : Prop := (∀ part ∈ read, part <:+: text) ∧ rest <:+ text

theorem Parts.suffix {text' : Chars} {read : List Chars} (h : Parts text read rest) (htext : text <:+ text') :
    Parts text' read rest :=
  ⟨fun part hpart => (h.1 part hpart).trans htext.isInfix, h.2.trans htext⟩

theorem Parts.append {text' : Chars} {read read' : List Chars} (h : Parts text read text')
    (h' : Parts text' read' rest) : Parts text (read ++ read') rest := by
  refine ⟨fun part hpart => ?_, h'.2.trans h.2⟩
  rcases List.mem_append.1 hpart with hpart | hpart
  · exact h.1 part hpart
  · exact (h'.1 part hpart).trans h.2.isInfix

theorem skipSpace_suffix (text : Chars) : skipSpace text <:+ text := List.dropWhile_suffix _

variable {read : Chars}

/-- Without a backslash, the characters of a string are those of the text. -/
theorem parseChars_plain (hescape : '\\' ∉ text) (h : parseChars 0 text = some (read, rest)) :
    text = read ++ '"' :: rest := by
  induction text generalizing read with
  | nil => cases h
  | cons c text ih =>
    rw [List.mem_cons, not_or] at hescape
    rw [parseChars, if_neg (Ne.symm hescape.1)] at h
    split_ifs at h with hquote hcontrol
    · cases h
      rw [hquote, List.nil_append]
    · obtain ⟨⟨read', rest'⟩, hread, heq⟩ := Option.map_eq_some_iff.1 h
      cases heq
      rw [ih hescape.2 hread, List.cons_append]

theorem parseChars_parts (hescape : '\\' ∉ text) (h : parseChars 0 text = some (read, rest)) :
    Parts text [read] rest := by
  have htext := parseChars_plain hescape h
  refine ⟨fun part hpart => ?_, ⟨read ++ ['"'], by simp [htext]⟩⟩
  rw [List.mem_singleton.1 hpart, htext]
  exact (List.prefix_append read _).isInfix

section

variable {α : Type} {element : Chars → Option (α × Chars)} {close : Char} {part : α → List Chars}
  (helement : ∀ {text rest : Chars} {x : α}, '\\' ∉ text → element text = some (x, rest) → Parts text (part x) rest)
include helement

/-- **What is read of elements is read of the text.** By induction over the elements. -/
theorem parseSequence_parts {fuel : ℕ} {xs : List α} (hescape : '\\' ∉ text)
    (h : parseSequence element close fuel text = some (xs, rest)) : Parts text (xs.flatMap part) rest := by
  induction fuel generalizing text xs with
  | zero => cases h
  | succ fuel ih =>
    rw [parseSequence] at h
    split at h
    · cases h
    rename_i x after hx
    have hparts := helement hescape hx
    split at h
    · cases h
    rename_i c more hafter
    have hmore : more <:+ after := (List.suffix_cons c more).trans (hafter ▸ skipSpace_suffix after)
    split_ifs at h
    · obtain ⟨⟨xs', rest'⟩, hxs, heq⟩ := Option.map_eq_some_iff.1 h
      cases heq
      have hescape' : '\\' ∉ more := fun hmem => hescape ((hmore.trans hparts.2).subset hmem)
      rw [List.flatMap_cons]
      exact hparts.append ((ih hescape' hxs).suffix hmore)
    · cases h
      rw [List.flatMap_singleton]
      exact ⟨hparts.1, hmore.trans hparts.2⟩

theorem parseElements_parts {xs : List α} (hescape : '\\' ∉ text)
    (h : parseElements element close text = some (xs, rest)) : Parts text (xs.flatMap part) rest := by
  rw [parseElements] at h
  split at h
  · cases h
  rename_i c more htext
  split_ifs at h
  · cases h
    exact ⟨by simp, (List.suffix_cons c _).trans (htext ▸ skipSpace_suffix text)⟩
  · exact parseSequence_parts helement hescape h

end

theorem readDigits_suffix (h : readDigits text = some (read, rest)) : rest <:+ text := by
  unfold readDigits at h
  split_ifs at h
  cases h
  exact List.dropWhile_suffix _

theorem readUnsigned_suffix (h : readUnsigned text = some (read, rest)) : rest <:+ text := by
  obtain ⟨⟨whole, rest₁⟩, hwhole, h⟩ := Option.bind_eq_some_iff.1 h
  obtain ⟨⟨fraction, rest₂⟩, hfraction, h⟩ := Option.bind_eq_some_iff.1 h
  obtain ⟨⟨exponent, rest₃⟩, hexponent, h⟩ := Option.bind_eq_some_iff.1 h
  cases h
  have hsuffix₁ : rest₁ <:+ text := by
    unfold readWhole at hwhole
    split at hwhole
    · cases hwhole
      exact List.suffix_cons ..
    · exact readDigits_suffix hwhole
  have hsuffix₂ : rest₂ <:+ rest₁ := by
    unfold readFraction at hfraction
    split at hfraction
    · obtain ⟨_, hread, heq⟩ := Option.map_eq_some_iff.1 hfraction
      cases heq
      exact (readDigits_suffix hread).trans (List.suffix_cons ..)
    · cases hfraction
      exact List.suffix_refl _
  have hsuffix₃ : rest <:+ rest₂ := by
    unfold readExponent at hexponent
    split at hexponent
    · split_ifs at hexponent
      · split at hexponent
        · split_ifs at hexponent
          · obtain ⟨_, hread, heq⟩ := Option.map_eq_some_iff.1 hexponent
            cases heq
            exact (readDigits_suffix hread).trans ((List.suffix_cons ..).trans (List.suffix_cons ..))
          · obtain ⟨_, hread, heq⟩ := Option.map_eq_some_iff.1 hexponent
            cases heq
            exact (readDigits_suffix hread).trans (List.suffix_cons ..)
        · cases hexponent
      · cases hexponent
        exact List.suffix_refl _
    · cases hexponent
      exact List.suffix_refl _
  exact hsuffix₃.trans (hsuffix₂.trans hsuffix₁)

theorem readNumber_suffix (h : readNumber text = some (read, rest)) : rest <:+ text := by
  unfold readNumber at h
  split at h
  · obtain ⟨_, hread, heq⟩ := Option.map_eq_some_iff.1 h
    cases heq
    exact (readUnsigned_suffix hread).trans (List.suffix_cons ..)
  · exact readUnsigned_suffix h

theorem mem_foldl_putField {α : Type} {fields done : List (Chars × α)} {field : Chars × α}
    (h : field ∈ fields.foldl putField done) : field ∈ done ∨ field ∈ fields := by
  induction fields generalizing done with
  | nil => exact .inl h
  | cons other fields ih =>
    rcases ih h with h | h
    · rcases List.mem_append.1 h with h | h
      · exact .inl (List.mem_of_mem_filter h)
      · exact .inr (List.mem_cons.2 (.inl (List.mem_singleton.1 h)))
    · exact .inr (List.mem_cons_of_mem _ h)

theorem parseField_parts {value : Chars → Option (JsonValue × Chars)}
    (hvalue : ∀ {text rest : Chars} {x : JsonValue}, '\\' ∉ text → value text = some (x, rest) → Parts text x.strings rest)
    {field : Chars × JsonValue} (hescape : '\\' ∉ text)
    (h : parseField value text = some (field, rest)) : Parts text (field.1 :: field.2.strings) rest := by
  unfold parseField at h
  split at h
  · rename_i after htext
    have hafter : after <:+ text := (List.suffix_cons '"' after).trans (htext ▸ skipSpace_suffix text)
    obtain ⟨⟨name, more⟩, hname, h⟩ := Option.bind_eq_some_iff.1 h
    have hparts := parseChars_parts (fun hmem => hescape (hafter.subset hmem)) hname
    dsimp only at h
    split at h
    · rename_i last hlast
      have hlast' : last <:+ more := (List.suffix_cons ':' last).trans (hlast ▸ skipSpace_suffix more)
      obtain ⟨⟨x, rest'⟩, hx, heq⟩ := Option.map_eq_some_iff.1 h
      cases heq
      have hescape' : '\\' ∉ last := fun hmem => hescape ((hlast'.trans (hparts.2.trans hafter)).subset hmem)
      exact (hparts.append ((hvalue hescape' hx).suffix hlast')).suffix hafter
    · cases h
  · cases h

/-- **What is read of a text without escapes is read of the text**, string by string. -/
theorem valueStep_parts {inner : Option (Chars → Option (JsonValue × Chars))}
    (hinner : ∀ value ∈ inner, ∀ {text rest : Chars} {x : JsonValue}, '\\' ∉ text → value text = some (x, rest) →
      Parts text x.strings rest)
    {x : JsonValue} (hescape : '\\' ∉ text) (h : valueStep inner text = some (x, rest)) :
    Parts text x.strings rest := by
  rw [valueStep] at h
  split at h
  · cases h
  rename_i c more htext
  have hmore : more <:+ text := (List.suffix_cons c more).trans (htext ▸ skipSpace_suffix text)
  have hescape' : '\\' ∉ more := fun hmem => hescape (hmore.subset hmem)
  have hdrop : ∀ n, more.drop n <:+ text := fun n => (List.drop_suffix n more).trans hmore
  split_ifs at h
  · obtain ⟨⟨read, rest'⟩, hread, heq⟩ := Option.map_eq_some_iff.1 h
    cases heq
    exact (parseChars_parts hescape' hread).suffix hmore
  · obtain ⟨value, hvalue, h⟩ := Option.bind_eq_some_iff.1 h
    obtain ⟨⟨items, rest'⟩, hitems, heq⟩ := Option.map_eq_some_iff.1 h
    cases heq
    rw [strings, stringsOfItems_eq]
    exact (parseElements_parts (hinner value hvalue) hescape' hitems).suffix hmore
  · obtain ⟨value, hvalue, h⟩ := Option.bind_eq_some_iff.1 h
    obtain ⟨⟨fields, rest'⟩, hfields, heq⟩ := Option.map_eq_some_iff.1 h
    cases heq
    rw [strings, stringsOfFields_eq]
    obtain ⟨hparts, hrest⟩ := (parseElements_parts (parseField_parts (hinner value hvalue)) hescape' hfields).suffix hmore
    refine ⟨fun part hpart => ?_, hrest⟩
    obtain ⟨field, hfield, hpart⟩ := List.mem_flatMap.1 hpart
    rcases mem_foldl_putField hfield with hfield | hfield
    · cases hfield
    · exact hparts part (List.mem_flatMap.2 ⟨field, hfield, hpart⟩)
  · cases h
    exact ⟨by simp [strings], hdrop 3⟩
  · cases h
    exact ⟨by simp [strings], hdrop 4⟩
  · cases h
    exact ⟨by simp [strings], hdrop 3⟩
  · obtain ⟨⟨number, rest'⟩, hnumber, heq⟩ := Option.map_eq_some_iff.1 h
    cases heq
    exact ⟨by simp [strings], (readNumber_suffix hnumber).trans (htext ▸ skipSpace_suffix text)⟩

theorem parseValue_parts : ∀ {text rest : Chars} {x : JsonValue}, '\\' ∉ text →
    parseValue limit text = some (x, rest) → Parts text x.strings rest := by
  induction limit with
  | zero => exact valueStep_parts (by simp)
  | succ limit ih =>
    refine valueStep_parts fun value hvalue => ?_
    cases hvalue
    exact ih

/-- **The strings of a document without escapes are parts of its text.** -/
theorem decode_parts (hescape : '\\' ∉ text)
    (h : decode limit text = some value) : ∀ part ∈ value.strings, part <:+: text := by
  rw [decode] at h
  split at h
  · cases h
  rename_i hread
  split_ifs at h
  cases h
  exact (parseValue_parts hescape hread).1

end GoEtl.Text.JsonValue
