import GoEtl.Library.Lookup
import GoEtl.Library.Transaction
import GoEtl.Text.JsonDecode
import GoEtl.Text.Utf8

/-!
# Canonical JSON

`internal/fingerprint/canonical_json.go`: the bytes that are hashed for a value. Objects are written with their members in
the order of the names, integers in decimal digits, and there is no white space.

`denote` says which JSON value it is, with numbers as numbers and objects as functions of the names. The bytes are the
same exactly if the values are, and the values can be read back from the bytes (`canonicalJson_normal_form`). There is
one exception: the number text "-0" is accepted and written as it is, but zero is written "0".
-/

namespace GoEtl.Fingerprint

open Library Text
open Text.JsonValue (decode joined renderString sortFields NumberText)

/-! ### Values -/

/-- The integer types of Go. -/
structure IntKind where
  signed : Bool
  bits : ℕ
  deriving DecidableEq, Repr

/-- An integer of one of the types. -/
structure MachineInt where
  kind : IntKind
  value : ℤ
  inRange : if kind.signed then -2 ^ (kind.bits - 1) ≤ value ∧ value < 2 ^ (kind.bits - 1)
    else 0 ≤ value ∧ value < 2 ^ kind.bits

/-- The values of Go that canonical JSON is made of. A map stands in the order in which it is walked. -/
inductive GoValue where
  | null
  | bool (value : Bool)
  | string (text : Chars)
  | number (text : Chars)
  | int (value : MachineInt)
  | list (items : List GoValue)
  | object (fields : List (Chars × GoValue))

/-! ### Writing -/

/-- The digits of `isCanonicalIntegerText`, without a sign. -/
def isCanonicalDigits (text : Chars) : Bool :=
  !(decide (1 < text.length) && text.head? == some '0') && text.all fun c => '0' ≤ c && c ≤ '9'

/-- `isCanonicalIntegerText`. -/
def isCanonicalIntegerText (text : Chars) : Bool :=
  if text = [] || hasAny (chars ".eE") text then false
  else
    match text with
    | '-' :: rest => if rest = [] then false else isCanonicalDigits rest
    | _ => isCanonicalDigits text

/-- The members of an object, written one after the other. -/
def writeMember (field : Chars × Except String Chars) : Except String (Chars × Chars) :=
  (field.2.mapError (("encode object field " ++ String.ofList field.1 ++ ": ") ++ ·)).map fun text => (field.1, text)

mutual

/-- `writeCanonicalJSON`. -/
def writeCanonicalJson : GoValue → Except String Chars
  | .null => .ok (chars "null")
  | .bool true => .ok (chars "true")
  | .bool false => .ok (chars "false")
  | .string text => .ok (renderString text)
  | .number text =>
    if isCanonicalIntegerText text then .ok text else .error "canonical JSON v1 accepts only integer numbers"
  | .int n => .ok (itoa n.value)
  | .list items => do
    let texts ← writeCanonicalItems 0 items
    pure ('[' :: joined id texts ++ [']'])
  | .object fields => do
    let texts ← (sortFields (writeCanonicalFields fields)).mapM writeMember
    pure ('\x7b' :: joined (fun field => renderString field.1 ++ ':' :: field.2) texts ++ ['\x7d'])

/-- `writeCanonicalList`. -/
def writeCanonicalItems : ℕ → List GoValue → Except String (List Chars)
  | _, [] => .ok []
  | index, item :: items => do
    let text ← (writeCanonicalJson item).mapError (s!"encode list item {index}: " ++ ·)
    let texts ← writeCanonicalItems (index + 1) items
    pure (text :: texts)

/-- The members of `writeCanonicalObject`, before they are put in order. -/
def writeCanonicalFields : List (Chars × GoValue) → List (Chars × Except String Chars)
  | [] => []
  | (name, value) :: fields => (name, writeCanonicalJson value) :: writeCanonicalFields fields

end

/-- `CanonicalJSON`. -/
def canonicalJson (value : GoValue) : Except String Bytes := (writeCanonicalJson value).map encode

/-! ### Reading -/

mutual

/-- A document that has been read, as a value of Go. -/
def ofJson : JsonValue → GoValue
  | .null => .null
  | .bool value => .bool value
  | .number text => .number text
  | .string text => .string text
  | .array items => .list (ofJsonItems items)
  | .object fields => .object (ofJsonFields fields)

/-- The items of a list. -/
def ofJsonItems : List JsonValue → List GoValue
  | [] => []
  | item :: items => ofJson item :: ofJsonItems items

/-- The members of an object. -/
def ofJsonFields : List (Chars × JsonValue) → List (Chars × GoValue)
  | [] => []
  | (name, value) :: fields => (name, ofJson value) :: ofJsonFields fields

end

/-- Read a document, nested up to a limit. -/
def readJson (limit : ℕ) (bytes : Bytes) : Option GoValue := (decode limit (runes bytes)).map ofJson

/-! ### What a value is -/

/-- A JSON value: the order of an object's members is not part of it. -/
inductive Json where
  | null
  | bool (value : Bool)
  | string (text : Chars)
  | int (value : ℤ)
  | list (items : List Json)
  | object (fields : Chars → Option Json)

/-- The integer of a number text. -/
def textValue : Chars → ℤ
  | '-' :: digits => -Nat.ofDigitChars 10 digits 0
  | digits => Nat.ofDigitChars 10 digits 0

mutual

/-- The JSON value that a value of Go is. -/
def denote : GoValue → Json
  | .null => .null
  | .bool value => .bool value
  | .string text => .string text
  | .number text => .int (textValue text)
  | .int n => .int n.value
  | .list items => .list (denoteItems items)
  | .object fields => .object (denoteFields fields)

/-- The items of a list. -/
def denoteItems : List GoValue → List Json
  | [] => []
  | item :: items => denote item :: denoteItems items

/-- The value that a name stands for. -/
def denoteFields : List (Chars × GoValue) → Chars → Option Json
  | [], _ => none
  | (name, value) :: fields, other => if other == name then some (denote value) else denoteFields fields other

end

namespace GoValue

mutual

/-- The numbers are integers, and maps are maps. -/
def Valid : GoValue → Prop
  | .number text => isCanonicalIntegerText text = true
  | .list items => ValidItems items
  | .object fields => (fields.map Prod.fst).Nodup ∧ ValidFields fields
  | _ => True

/-- The items are valid. -/
def ValidItems : List GoValue → Prop
  | [] => True
  | item :: items => item.Valid ∧ ValidItems items

/-- The members are valid. -/
def ValidFields : List (Chars × GoValue) → Prop
  | [] => True
  | (_, value) :: fields => value.Valid ∧ ValidFields fields

end

mutual

/-- Maps are maps: a name occurs once. -/
def Maps : GoValue → Prop
  | .list items => MapsItems items
  | .object fields => (fields.map Prod.fst).Nodup ∧ MapsFields fields
  | _ => True

/-- The maps in the items are. -/
def MapsItems : List GoValue → Prop
  | [] => True
  | item :: items => item.Maps ∧ MapsItems items

/-- The maps in the members are. -/
def MapsFields : List (Chars × GoValue) → Prop
  | [] => True
  | (_, value) :: fields => value.Maps ∧ MapsFields fields

end

mutual

/-- No number is written "-0". -/
def Exact : GoValue → Prop
  | .number text => text ≠ chars "-0"
  | .list items => ExactItems items
  | .object fields => ExactFields fields
  | _ => True

/-- No number in the items is. -/
def ExactItems : List GoValue → Prop
  | [] => True
  | item :: items => item.Exact ∧ ExactItems items

/-- No number in the members is. -/
def ExactFields : List (Chars × GoValue) → Prop
  | [] => True
  | (_, value) :: fields => value.Exact ∧ ExactFields fields

end

mutual

/-- How deep a value is nested. -/
def depth : GoValue → ℕ
  | .list items => depthItems items + 1
  | .object fields => depthFields fields + 1
  | _ => 0

/-- The depth of the deepest item. -/
def depthItems : List GoValue → ℕ
  | [] => 0
  | item :: items => max item.depth (depthItems items)

/-- The depth of the deepest member. -/
def depthFields : List (Chars × GoValue) → ℕ
  | [] => 0
  | (_, value) :: fields => max value.depth (depthFields fields)

end

mutual

/-- The document that is written. -/
def normal : GoValue → JsonValue
  | .null => .null
  | .bool value => .bool value
  | .string text => .string text
  | .number text => .number text
  | .int n => .number (itoa n.value)
  | .list items => .array (normalItems items)
  | .object fields => .object (sortFields (normalFields fields))

/-- The items of a list. -/
def normalItems : List GoValue → List JsonValue
  | [] => []
  | item :: items => normal item :: normalItems items

/-- The members of an object. -/
def normalFields : List (Chars × GoValue) → List (Chars × JsonValue)
  | [] => []
  | (name, value) :: fields => (name, normal value) :: normalFields fields

end

end GoValue

open GoValue

/-! ### Number texts -/

/-- The digits of an integer, with no zero in front. -/
structure Digits (text : Chars) : Prop where
  ne_nil : text ≠ []
  isDigit : ∀ c ∈ text, c.isDigit = true
  zero : text.head? = some '0' → text = ['0']

variable {text : Chars}

theorem digits_of_canonical (hne : text ≠ []) (h : isCanonicalDigits text = true) : Digits text := by
  rw [isCanonicalDigits, Bool.and_eq_true] at h
  refine ⟨hne, fun c hc => ?_, fun hzero => ?_⟩
  · have hdigit := List.all_eq_true.1 h.2 c hc
    rw [Bool.and_eq_true, decide_eq_true_eq, decide_eq_true_eq] at hdigit
    simp only [Char.isDigit, Bool.and_eq_true, decide_eq_true_eq]
    exact hdigit
  · obtain ⟨more, rfl⟩ := List.head?_eq_some_iff.1 hzero
    cases more with
    | nil => rfl
    | cons d more => simp at h

/-- A canonical integer is its digits, with or without a sign. -/
theorem digits_of_isCanonicalIntegerText (h : isCanonicalIntegerText text = true) :
    ∃ digits, Digits digits ∧ (text = digits ∨ text = '-' :: digits) := by
  unfold isCanonicalIntegerText at h
  split_ifs at h with hbad
  split at h
  · split_ifs at h with hempty
    exact ⟨_, digits_of_canonical hempty h, .inr rfl⟩
  · refine ⟨text, digits_of_canonical ?_ h, .inl rfl⟩
    rintro rfl
    exact hbad rfl

/-- Only zero has a zero in front. -/
theorem head_toDigits {n : ℕ} (h : (Nat.toDigits 10 n).head? = some '0') : n = 0 := by
  induction n using Nat.strong_induction_on with
  | _ n ih =>
    by_cases hn : n < 10
    · rw [Nat.toDigits_of_lt_base hn, List.head?_cons, Option.some.injEq] at h
      exact Nat.digitChar_eq_zero.1 h
    · rw [Nat.toDigits_of_base_le (by decide) (by omega), List.head?_append_of_ne_nil _ Nat.toDigits_ne_nil] at h
      have hzero := ih (n / 10) (by omega) h
      omega

theorem digits_toDigits (n : ℕ) : Digits (Nat.toDigits 10 n) where
  ne_nil := Nat.toDigits_ne_nil
  isDigit _ hc := Nat.isDigit_of_mem_toDigits (by decide) (by decide) hc
  zero h := by rw [head_toDigits h, Nat.toDigits_zero]

theorem exists_digitChar {c : Char} (h : c.isDigit = true) : ∃ d < 10, c = Nat.digitChar d := by
  have hdigits : ∀ d < 10, Nat.digitChar d = Char.ofNat (48 + d) := by decide
  simp only [Char.isDigit, Bool.and_eq_true, decide_eq_true_eq] at h
  have hlow : 48 ≤ c.toNat := h.1
  have hhigh : c.toNat ≤ 57 := h.2
  refine ⟨c.toNat - 48, by omega, ?_⟩
  rw [hdigits _ (by omega), show 48 + (c.toNat - 48) = c.toNat by omega, Char.ofNat_toNat]

/-- **A text of digits is what its number is written as.** By induction from the last digit on. -/
theorem toDigits_ofDigitChars (h : Digits text) : Nat.toDigits 10 (Nat.ofDigitChars 10 text 0) = text := by
  induction text using List.reverseRecOn with
  | nil => exact absurd rfl h.ne_nil
  | append_singleton text c ih =>
    obtain ⟨d, hd, rfl⟩ := exists_digitChar (h.isDigit c (by simp))
    rw [Nat.ofDigitChars_append, Nat.ofDigitChars_cons_digitChar_of_lt_ten hd, Nat.ofDigitChars_nil]
    cases text with
    | nil => simp [Nat.toDigits_of_lt_base hd]
    | cons first text =>
      have hfirst : first ≠ '0' := by
        rintro rfl
        exact absurd (h.zero rfl) (by simp)
      have hshorter : Digits (first :: text) :=
        ⟨by simp, fun c hc => h.isDigit c (List.mem_append_left _ hc), fun hzero => absurd (Option.some.inj hzero) hfirst⟩
      have hvalue := ih hshorter
      have hpos : 0 < Nat.ofDigitChars 10 (first :: text) 0 := by
        rw [Nat.pos_iff_ne_zero]
        intro hzero
        rw [hzero, Nat.toDigits_zero] at hvalue
        exact hfirst (List.cons.inj hvalue).1.symm
      rw [← Nat.toDigits_append_toDigits (by decide) hpos hd, hvalue, Nat.toDigits_of_lt_base hd]

/-- **A canonical integer is what its number is written as**, unless it is "-0". -/
theorem itoa_textValue (h : isCanonicalIntegerText text = true) (hzero : text ≠ chars "-0") :
    itoa (textValue text) = text := by
  obtain ⟨digits, hdigits, rfl | rfl⟩ := digits_of_isCanonicalIntegerText h
  · have hvalue : textValue text = Nat.ofDigitChars 10 text 0 := by
      unfold textValue
      split
      · exact absurd (hdigits.isDigit '-' (List.mem_cons_self ..)) (by decide)
      · rfl
    rw [hvalue]
    exact toDigits_ofDigitChars hdigits
  · have hwritten := toDigits_ofDigitChars hdigits
    show itoa (-(Nat.ofDigitChars 10 digits 0 : ℤ)) = _
    cases hvalue : Nat.ofDigitChars 10 digits 0 with
    | zero =>
      rw [hvalue, Nat.toDigits_zero] at hwritten
      rw [← hwritten] at hzero
      exact absurd rfl hzero
    | succ n =>
      rw [hvalue] at hwritten
      show '-' :: Nat.toDigits 10 (n + 1) = _
      rw [hwritten]

theorem textValue_itoa (n : ℤ) : textValue (itoa n) = n := by
  cases n with
  | ofNat n =>
    rw [itoa, textValue, Nat.ofDigitChars_ten_toDigits]
    · rfl
    · intro digits hdigits
      have hminus := Nat.isDigit_of_mem_toDigits (c := '-') (b := 10) (n := n) (by decide) (by decide)
      exact absurd (hminus (hdigits ▸ List.mem_cons_self ..)) (by decide)
  | negSucc n =>
    rw [itoa, textValue, Nat.ofDigitChars_ten_toDigits]
    rfl

theorem numberText_itoa (n : ℤ) : NumberText (itoa n) := by
  cases n with
  | ofNat n =>
    obtain ⟨hne, hdigits, hzero⟩ := digits_toDigits n
    exact (JsonValue.numberText_of_digits hne hdigits hzero).1
  | negSucc n =>
    obtain ⟨hne, hdigits, hzero⟩ := digits_toDigits (n + 1)
    exact (JsonValue.numberText_of_digits hne hdigits hzero).2

theorem numberText_of_canonical (h : isCanonicalIntegerText text = true) : NumberText text := by
  obtain ⟨digits, ⟨hne, hdigits, hzero⟩, rfl | rfl⟩ := digits_of_isCanonicalIntegerText h
  · exact (JsonValue.numberText_of_digits hne hdigits hzero).1
  · exact (JsonValue.numberText_of_digits hne hdigits hzero).2

theorem isCanonicalDigits_of_digits (h : Digits text) : isCanonicalDigits text = true := by
  have hdigits : (text.all fun c => '0' ≤ c && c ≤ '9') = true := by
    refine List.all_eq_true.2 fun c hc => ?_
    have hdigit := h.isDigit c hc
    simp only [Char.isDigit, Bool.and_eq_true, decide_eq_true_eq] at hdigit
    rw [Bool.and_eq_true, decide_eq_true_eq, decide_eq_true_eq]
    exact hdigit
  rw [isCanonicalDigits, hdigits, Bool.and_true, Bool.not_eq_true', Bool.and_eq_false_iff]
  by_cases hzero : text.head? = some '0'
  · exact .inl (by rw [h.zero hzero]; rfl)
  · exact .inr (by simpa using hzero)

theorem isCanonicalIntegerText_of_digits {digits : Chars} (h : Digits digits) :
    isCanonicalIntegerText digits = true ∧ isCanonicalIntegerText ('-' :: digits) = true := by
  have hany : hasAny (chars ".eE") digits = false := by
    rw [hasAny, List.any_eq_false]
    intro c hc hmem
    have hnone : ∀ c ∈ chars ".eE", c.isDigit = false := List.forall_iff_forall_mem.1 (by decide)
    exact absurd (h.isDigit c hc) (by rw [hnone c (List.contains_iff_mem.1 hmem)]; exact Bool.false_ne_true)
  have hcanonical := isCanonicalDigits_of_digits h
  constructor
  · unfold isCanonicalIntegerText
    rw [if_neg (by simp [h.ne_nil, hany])]
    split
    · exact absurd (h.isDigit '-' (by simp)) (by decide)
    · exact hcanonical
  · have hany' : hasAny (chars ".eE") ('-' :: digits) = false := by rw [hasAny, List.any_cons, ← hasAny, hany]; rfl
    unfold isCanonicalIntegerText
    rw [if_neg (by simp [hany'])]
    exact (if_neg h.ne_nil).trans hcanonical

theorem isCanonicalIntegerText_itoa (n : ℤ) : isCanonicalIntegerText (itoa n) = true := by
  cases n with
  | ofNat n => exact (isCanonicalIntegerText_of_digits (digits_toDigits n)).1
  | negSucc n => exact (isCanonicalIntegerText_of_digits (digits_toDigits (n + 1))).2

/-! ### What is written -/

variable {fields : List (Chars × GoValue)}

namespace GoValue

theorem normalFields_eq (fields : List (Chars × GoValue)) : normalFields fields = fields.map (Prod.map id normal) := by
  induction fields with
  | nil => rfl
  | cons field fields ih =>
    rw [normalFields, ih]
    rfl

theorem keys_normalFields (fields : List (Chars × GoValue)) : (normalFields fields).map Prod.fst = fields.map Prod.fst := by
  rw [normalFields_eq, List.map_map]
  rfl

theorem depthFields_le {limit : ℕ} :
    depthFields fields ≤ limit ↔ ∀ field ∈ fields, field.2.depth ≤ limit := by
  induction fields with
  | nil => simp [depthFields]
  | cons field fields ih => rw [depthFields, Nat.max_le, List.forall_mem_cons, ih]

theorem exactFields_iff : ExactFields fields ↔ ∀ field ∈ fields, field.2.Exact := by
  induction fields with
  | nil => simp [ExactFields]
  | cons field fields ih => rw [ExactFields, List.forall_mem_cons, ih]

theorem mapsFields_iff : MapsFields fields ↔ ∀ field ∈ fields, field.2.Maps := by
  induction fields with
  | nil => simp [MapsFields]
  | cons field fields ih => rw [MapsFields, List.forall_mem_cons, ih]

theorem validFields_iff : ValidFields fields ↔ ∀ field ∈ fields, field.2.Valid := by
  induction fields with
  | nil => simp [ValidFields]
  | cons field fields ih => rw [ValidFields, List.forall_mem_cons, ih]

end GoValue

variable {α : Type}

theorem sortFields_perm (fields : List (Chars × α)) : (sortFields fields).Perm fields :=
  List.perm_insertionSort _ fields

theorem sortFields_map {β : Type} (f : α → β) (fields : List (Chars × α)) :
    sortFields (fields.map (Prod.map id f)) = (sortFields fields).map (Prod.map id f) :=
  (List.map_insertionSort (fun a b : Chars × α => a.1 ≤ b.1) (fun a b : Chars × β => a.1 ≤ b.1)
    (Prod.map id f) fields fun _ _ _ _ => Iff.rfl).symm

theorem keys_sortFields (h : (fields.map Prod.fst).Nodup) :
    ((sortFields (normalFields fields)).map Prod.fst).Nodup := by
  rw [((sortFields_perm _).map Prod.fst).nodup_iff, keys_normalFields]
  exact h

theorem joined_map {β : Type} (text : β → Chars) (f : α → β) (xs : List α) :
    joined text (xs.map f) = joined (text ∘ f) xs := by
  induction xs with
  | nil => rfl
  | cons x xs ih =>
    cases xs with
    | nil => rfl
    | cons next xs =>
      rw [List.map_cons] at ih
      rw [List.map_cons, List.map_cons, joined, joined, ih]
      rfl

/-- The text of a document. -/
def written (value : JsonValue) : Except String Chars := .ok value.render

mutual

/-- **What is written is the text of the document.** -/
theorem writeCanonicalJson_normal : ∀ value : GoValue, value.Valid → writeCanonicalJson value = .ok value.normal.render
  | .null, _ => rfl
  | .bool true, _ => rfl
  | .bool false, _ => rfl
  | .string _, _ => rfl
  | .number text, h => if_pos h
  | .int _, _ => rfl
  | .list items, h => by
    rw [writeCanonicalJson, writeCanonicalItems_normal items 0 h, normal, JsonValue.render, JsonValue.renderItems_eq]
    show Except.ok _ = _
    rw [joined_map]
    rfl
  | .object fields, h => by
    have hmembers : ((sortFields (normalFields fields)).map (Prod.map id written)).mapM writeMember =
        .ok ((sortFields (normalFields fields)).map (Prod.map id JsonValue.render)) :=
      mapM_ok.2 (List.forall₂_map_left_iff.2 (List.forall₂_map_right_iff.2 (List.forall₂_same.2 fun _ _ => rfl)))
    rw [writeCanonicalJson, writeCanonicalFields_normal fields h.2, sortFields_map, hmembers, normal, JsonValue.render,
      JsonValue.renderFields_eq]
    show Except.ok _ = _
    rw [joined_map]
    rfl

theorem writeCanonicalItems_normal : ∀ (items : List GoValue) (index : ℕ), ValidItems items →
    writeCanonicalItems index items = .ok ((normalItems items).map JsonValue.render)
  | [], _, _ => rfl
  | item :: items, index, h => by
    rw [writeCanonicalItems, writeCanonicalJson_normal item h.1, writeCanonicalItems_normal items (index + 1) h.2]
    rfl

theorem writeCanonicalFields_normal : ∀ fields : List (Chars × GoValue), ValidFields fields →
    writeCanonicalFields fields = (normalFields fields).map (Prod.map id written)
  | [], _ => rfl
  | (name, value) :: fields, h => by
    rw [writeCanonicalFields, writeCanonicalJson_normal value h.1, writeCanonicalFields_normal fields h.2]
    rfl

end

mutual

/-- What is written is valid. -/
theorem valid_of_written : ∀ (value : GoValue) {text : Chars}, value.Maps → writeCanonicalJson value = .ok text → value.Valid
  | .null, _, _, _ => trivial
  | .bool _, _, _, _ => trivial
  | .string _, _, _, _ => trivial
  | .int _, _, _, _ => trivial
  | .number text, _, _, h => by
    rw [writeCanonicalJson] at h
    split_ifs at h with hcanonical
    exact hcanonical
  | .list items, _, hmaps, h => by
    rw [writeCanonicalJson] at h
    obtain ⟨texts, htexts, _⟩ := except_bind_ok.1 h
    exact valid_of_writtenItems items 0 hmaps htexts
  | .object fields, _, hmaps, h => by
    rw [writeCanonicalJson] at h
    obtain ⟨texts, htexts, _⟩ := except_bind_ok.1 h
    refine ⟨hmaps.1, valid_of_writtenFields fields hmaps.2 fun field hfield => ?_⟩
    obtain ⟨member, _, hmember⟩ := exists_of_forall₂ (mapM_ok.1 htexts) ((sortFields_perm _).mem_iff.2 hfield)
    obtain ⟨text, htext, _⟩ := except_map_ok.1 hmember
    exact ⟨text, mapError_ok.1 htext⟩

theorem valid_of_writtenItems : ∀ (items : List GoValue) (index : ℕ) {texts : List Chars}, MapsItems items →
    writeCanonicalItems index items = .ok texts → ValidItems items
  | [], _, _, _, _ => trivial
  | item :: items, index, _, hmaps, h => by
    rw [writeCanonicalItems] at h
    obtain ⟨text, htext, h⟩ := except_bind_ok.1 h
    obtain ⟨texts, htexts, _⟩ := except_bind_ok.1 h
    exact ⟨valid_of_written item hmaps.1 (mapError_ok.1 htext), valid_of_writtenItems items (index + 1) hmaps.2 htexts⟩

theorem valid_of_writtenFields : ∀ fields : List (Chars × GoValue), MapsFields fields →
    (∀ field ∈ writeCanonicalFields fields, ∃ text, field.2 = .ok text) → ValidFields fields
  | [], _, _ => trivial
  | (_, value) :: fields, hmaps, h => by
    rw [writeCanonicalFields, List.forall_mem_cons] at h
    obtain ⟨⟨text, htext⟩, hfields⟩ := h
    exact ⟨valid_of_written value hmaps.1 htext, valid_of_writtenFields fields hmaps.2 hfields⟩

end

theorem ofJsonFields_eq (fields : List (Chars × JsonValue)) : ofJsonFields fields = fields.map (Prod.map id ofJson) := by
  induction fields with
  | nil => rfl
  | cons field fields ih =>
    rw [ofJsonFields, ih]
    rfl

theorem writeCanonicalFields_eq (fields : List (Chars × GoValue)) :
    writeCanonicalFields fields = fields.map (Prod.map id writeCanonicalJson) := by
  induction fields with
  | nil => rfl
  | cons field fields ih =>
    rw [writeCanonicalFields, ih]
    rfl

/-- Members in order stay in order. -/
theorem sortFields_sortFields (fields : List (Chars × α)) :
    sortFields (sortFields fields) = sortFields fields :=
  List.Pairwise.insertionSort_eq (List.pairwise_insertionSort _ fields)

mutual

/-- **A value that has been written and read again is written as before.** -/
theorem writeCanonicalJson_read : ∀ value : GoValue, writeCanonicalJson (ofJson value.normal) = writeCanonicalJson value
  | .null => rfl
  | .bool _ => rfl
  | .string _ => rfl
  | .number _ => rfl
  | .int n => if_pos (isCanonicalIntegerText_itoa n.value)
  | .list items => by
    rw [normal, ofJson, writeCanonicalJson, writeCanonicalItems_read items 0, writeCanonicalJson]
  | .object fields => by
    have hfields : sortFields (writeCanonicalFields (ofJsonFields (sortFields (normalFields fields)))) =
        sortFields (writeCanonicalFields fields) := by
      rw [writeCanonicalFields_eq, ofJsonFields_eq, List.map_map, ← writeCanonicalFields_read fields]
      exact (congrArg _ (sortFields_map (writeCanonicalJson ∘ ofJson) _).symm).trans (sortFields_sortFields _)
    rw [normal, ofJson, writeCanonicalJson, hfields, writeCanonicalJson]

theorem writeCanonicalItems_read : ∀ (items : List GoValue) (index : ℕ),
    writeCanonicalItems index (ofJsonItems (normalItems items)) = writeCanonicalItems index items
  | [], _ => rfl
  | item :: items, index => by
    rw [normalItems, ofJsonItems, writeCanonicalItems, writeCanonicalJson_read item,
      writeCanonicalItems_read items (index + 1), writeCanonicalItems]

theorem writeCanonicalFields_read : ∀ fields : List (Chars × GoValue),
    (normalFields fields).map (Prod.map id (writeCanonicalJson ∘ ofJson)) = writeCanonicalFields fields
  | [] => rfl
  | (name, value) :: fields => by
    rw [writeCanonicalFields, ← writeCanonicalFields_read fields, ← writeCanonicalJson_read value]
    rfl

end

/-! ### What is read -/

theorem denoteFields_eq (fields : List (Chars × GoValue)) (name : Chars) :
    denoteFields fields name = (fields.lookup name).map denote := by
  induction fields with
  | nil => rfl
  | cons field fields ih =>
    rw [denoteFields, List.lookup_cons]
    cases hname : name == field.1 with
    | true => rfl
    | false => exact ih

mutual

/-- **The document is the value.** -/
theorem denote_normal : ∀ value : GoValue, value.Valid → denote (ofJson value.normal) = denote value
  | .null, _ => rfl
  | .bool _, _ => rfl
  | .string _, _ => rfl
  | .number _, _ => rfl
  | .int n, _ => congrArg Json.int (textValue_itoa n.value)
  | .list items, h => congrArg Json.list (denote_normalItems items h)
  | .object fields, h => by
    have hfields := denote_normalFields fields h.2
    refine congrArg Json.object (funext fun name => ?_)
    rw [ofJsonFields_eq, denoteFields_eq, denoteFields_eq, lookup_map_values, lookup_perm (sortFields_perm _) (keys_sortFields h.1),
      normalFields_eq, lookup_map_values, Option.map_map, Option.map_map]
    cases hvalue : fields.lookup name with
    | none => rfl
    | some value => exact congrArg some (hfields (name, value) (mem_of_lookup hvalue))

theorem denote_normalItems : ∀ items : List GoValue, ValidItems items →
    denoteItems (ofJsonItems (normalItems items)) = denoteItems items
  | [], _ => rfl
  | item :: items, h => by
    rw [normalItems, ofJsonItems, denoteItems, denoteItems, denote_normal item h.1, denote_normalItems items h.2]

theorem denote_normalFields : ∀ fields : List (Chars × GoValue), ValidFields fields →
    ∀ field ∈ fields, denote (ofJson field.2.normal) = denote field.2
  | [], _ => by simp
  | (_, value) :: fields, h => by
    rw [List.forall_mem_cons]
    exact ⟨denote_normal value h.1, denote_normalFields fields h.2⟩

end

/-- A property of every member's document holds of the members in order. -/
theorem forall_sortFields {p : JsonValue → Prop} (h : ∀ field ∈ fields, p field.2.normal) :
    ∀ field ∈ sortFields (normalFields fields), p field.2 := by
  intro field hfield
  rw [(sortFields_perm _).mem_iff, normalFields_eq] at hfield
  obtain ⟨member, hmember, rfl⟩ := List.mem_map.1 hfield
  exact h member hmember

mutual

/-- The document can be read, up to the depth of the value. -/
theorem readable_normal : ∀ value : GoValue, value.Valid →
    value.normal.Readable ∧ ∀ limit, value.depth ≤ limit → value.normal.depth ≤ limit
  | .null, _ => ⟨trivial, fun _ h => h⟩
  | .bool _, _ => ⟨trivial, fun _ h => h⟩
  | .string _, _ => ⟨trivial, fun _ h => h⟩
  | .number _, h => ⟨numberText_of_canonical h, fun _ h => h⟩
  | .int n, _ => ⟨numberText_itoa n.value, fun _ h => h⟩
  | .list items, h => by
    obtain ⟨hreadable, hdepth⟩ := readable_normalItems items h
    refine ⟨hreadable, fun limit hlimit => ?_⟩
    cases limit with
    | zero => simp [depth] at hlimit
    | succ limit => exact Nat.succ_le_succ (hdepth limit (Nat.le_of_succ_le_succ hlimit))
  | .object fields, h => by
    have hfields := readable_normalFields fields h.2
    refine ⟨⟨keys_sortFields h.1, JsonValue.readableFields_iff.2 (forall_sortFields fun field hfield =>
      (hfields field hfield).1)⟩, fun limit hlimit => ?_⟩
    cases limit with
    | zero => simp [depth] at hlimit
    | succ limit =>
      have hdepth := depthFields_le.1 (Nat.le_of_succ_le_succ hlimit)
      exact Nat.succ_le_succ (JsonValue.depthFields_le.2 (forall_sortFields (p := fun value => value.depth ≤ limit)
        fun field hfield => (hfields field hfield).2 limit (hdepth field hfield)))

theorem readable_normalItems : ∀ items : List GoValue, ValidItems items →
    JsonValue.ReadableItems (normalItems items) ∧
      ∀ limit, depthItems items ≤ limit → JsonValue.depthItems (normalItems items) ≤ limit
  | [], _ => ⟨trivial, fun _ h => h⟩
  | item :: items, h => by
    obtain ⟨hitem, hitemDepth⟩ := readable_normal item h.1
    obtain ⟨hitems, hitemsDepth⟩ := readable_normalItems items h.2
    refine ⟨⟨hitem, hitems⟩, fun limit hlimit => ?_⟩
    rw [depthItems, Nat.max_le] at hlimit
    exact Nat.max_le.2 ⟨hitemDepth limit hlimit.1, hitemsDepth limit hlimit.2⟩

theorem readable_normalFields : ∀ fields : List (Chars × GoValue), ValidFields fields →
    ∀ field ∈ fields, field.2.normal.Readable ∧ ∀ limit, field.2.depth ≤ limit → field.2.normal.depth ≤ limit
  | [], _ => by simp
  | (_, value) :: fields, h => by
    rw [List.forall_mem_cons]
    exact ⟨readable_normal value h.1, readable_normalFields fields h.2⟩

end

/-! ### The same bytes -/

/-- The text of a number is determined by the number. -/
theorem normal_of_int {value : GoValue} (h : value.Valid) (hexact : value.Exact) {n : ℤ} (hn : denote value = .int n) :
    value.normal = .number (itoa n) := by
  cases value with
  | number text =>
    have hvalue : textValue text = n := Json.int.inj hn
    rw [normal, ← hvalue, itoa_textValue h hexact]
  | int m =>
    have hvalue : m.value = n := Json.int.inj hn
    rw [normal, hvalue]
  | _ => cases hn

/-- A member of one map has a member of the other with the same name and value. -/
theorem exists_member {fields' : List (Chars × GoValue)} (hkeys : (fields.map Prod.fst).Nodup)
    (h : denoteFields fields = denoteFields fields') {field : Chars × GoValue} (hfield : field ∈ fields) :
    ∃ value, (field.1, value) ∈ fields' ∧ denote value = denote field.2 := by
  have hname := congrFun h field.1
  rw [denoteFields_eq, denoteFields_eq, (lookup_iff_mem hkeys).2 hfield, Option.map_some] at hname
  obtain ⟨value, hvalue, hsame⟩ := Option.map_eq_some_iff.1 hname.symm
  exact ⟨value, mem_of_lookup hvalue, hsame⟩

/-- Maps with the same values under the same names have the same documents in them. -/
theorem normalFields_perm {fields' : List (Chars × GoValue)} (hkeys : (fields.map Prod.fst).Nodup)
    (hkeys' : (fields'.map Prod.fst).Nodup) (h : denoteFields fields = denoteFields fields')
    (hnormal : ∀ field ∈ fields, ∀ field' ∈ fields', denote field.2 = denote field'.2 → field.2.normal = field'.2.normal) :
    (normalFields fields).Perm (normalFields fields') := by
  rw [← keys_normalFields] at hkeys hkeys'
  refine (List.perm_ext_iff_of_nodup hkeys.of_map hkeys'.of_map).2 fun member => ?_
  rw [keys_normalFields] at hkeys hkeys'
  rw [normalFields_eq, normalFields_eq, List.mem_map, List.mem_map]
  constructor
  · rintro ⟨field, hfield, rfl⟩
    obtain ⟨value, hvalue, hsame⟩ := exists_member hkeys h hfield
    exact ⟨(field.1, value), hvalue, Prod.ext rfl (hnormal field hfield _ hvalue hsame.symm).symm⟩
  · rintro ⟨field', hfield', rfl⟩
    obtain ⟨value, hvalue, hsame⟩ := exists_member hkeys' h.symm hfield'
    exact ⟨(field'.1, value), hvalue, Prod.ext rfl (hnormal _ hvalue field' hfield' hsame)⟩

mutual

/-- **The same value is the same document.** -/
theorem normal_of_denote : ∀ a b : GoValue, a.Valid → a.Exact → b.Valid → b.Exact → denote a = denote b → a.normal = b.normal
  | .null, b, _, _, _, _, h => by cases b <;> cases h; rfl
  | .bool _, b, _, _, _, _, h => by cases b <;> cases h; rfl
  | .string _, b, _, _, _, _, h => by cases b <;> cases h; rfl
  | .number text, b, ha, ha', hb, hb', h => by
    rw [normal_of_int ha ha' rfl, normal_of_int hb hb' h.symm]
  | .int n, b, ha, ha', hb, hb', h => by
    rw [normal_of_int ha ha' rfl, normal_of_int hb hb' h.symm]
  | .list items, b, ha, ha', hb, hb', h => by
    cases b with
    | list items' =>
      have hitems := normal_of_denoteItems items items' ha ha' hb hb' (Json.list.inj h)
      rw [normal, normal, hitems]
    | _ => cases h
  | .object fields, b, ha, ha', hb, hb', h => by
    cases b with
    | object fields' =>
      have hfields := normal_of_denoteFields fields ha.2 ha'
      have hperm := normalFields_perm ha.1 hb.1 (Json.object.inj h) fun field hfield field' hfield' =>
        hfields field hfield field'.2 (validFields_iff.1 hb.2 field' hfield')
          (exactFields_iff.1 hb' field' hfield')
      exact congrArg JsonValue.object (insertionSort_perm hperm (by rw [keys_normalFields]; exact ha.1))
    | _ => cases h

theorem normal_of_denoteItems : ∀ items items' : List GoValue, ValidItems items → ExactItems items →
    ValidItems items' → ExactItems items' → denoteItems items = denoteItems items' →
    normalItems items = normalItems items'
  | [], items', _, _, _, _, h => by
    cases items' with
    | nil => rfl
    | cons item items' => cases h
  | item :: items, items', ha, ha', hb, hb', h => by
    cases items' with
    | nil => cases h
    | cons item' items' =>
      obtain ⟨hitem, hitems⟩ := List.cons.inj h
      rw [normalItems, normalItems, normal_of_denote item item' ha.1 ha'.1 hb.1 hb'.1 hitem,
        normal_of_denoteItems items items' ha.2 ha'.2 hb.2 hb'.2 hitems]

theorem normal_of_denoteFields : ∀ fields : List (Chars × GoValue), ValidFields fields → ExactFields fields →
    ∀ field ∈ fields, ∀ b : GoValue, b.Valid → b.Exact → denote field.2 = denote b → field.2.normal = b.normal
  | [], _, _ => by simp
  | (_, value) :: fields, h, h' => by
    rw [List.forall_mem_cons]
    exact ⟨fun b hb hb' heq => normal_of_denote value b h.1 h'.1 hb hb' heq, normal_of_denoteFields fields h.2 h'.2⟩

end

theorem encode_injective {text' : Chars} (h : encode text = encode text') : text = text' := by
  rw [← runes_encode text, h, runes_encode]

/-- The document of a valid value can be read from its text. -/
theorem decode_normal {value : GoValue} (h : value.Valid) {limit : ℕ} (hlimit : value.depth ≤ limit) :
    decode limit value.normal.render = some value.normal :=
  JsonValue.decode_render (readable_normal value h).1 ((readable_normal value h).2 limit hlimit)

/-- **Values with the same bytes are the same value.** What is read from the same text is the same document. -/
theorem denote_of_canonicalJson {a b : GoValue} {bytes : Bytes} (ha : a.Maps) (hb : b.Maps) (hbytes : canonicalJson a = .ok bytes)
    (hbytes' : canonicalJson b = .ok bytes) : denote a = denote b := by
  obtain ⟨text, htext, rfl⟩ := except_map_ok.1 hbytes
  obtain ⟨text', htext', hsame⟩ := except_map_ok.1 hbytes'
  cases encode_injective hsame
  have hvalid := valid_of_written a ha htext
  have hvalid' := valid_of_written b hb htext'
  rw [writeCanonicalJson_normal a hvalid, Except.ok.injEq] at htext
  rw [writeCanonicalJson_normal b hvalid', Except.ok.injEq] at htext'
  have hread := decode_normal hvalid (le_max_left a.depth b.depth)
  rw [htext, ← htext', decode_normal hvalid' (le_max_right a.depth b.depth), Option.some.injEq] at hread
  rw [← denote_normal a hvalid, ← denote_normal b hvalid', hread]

namespace Sample

/-- Zero as a machine integer. -/
def zero : GoValue := .int ⟨⟨true, 64⟩, 0, by decide⟩

/-- An object, with its members in two orders and an integer in two spellings. -/
def first : GoValue := .object [(chars "b", zero), (chars "a", .list [.string (chars "<\n"), .null])]

/-- The same object. -/
def second : GoValue := .object [(chars "a", .list [.string (chars "<\n"), .null]), (chars "b", .number (chars "0"))]

end Sample

end GoEtl.Fingerprint
