import Mathlib.Data.Char
import Mathlib.Data.List.Lex
import Mathlib.Data.List.Sort
import GoEtl.Text.Chars

/-!
# JSON documents

The values that `encoding/json` reads and writes: what a text decodes to with numbers kept as texts, and the texts that
values are encoded as, with the members of a map in the order of their names.
-/

namespace GoEtl.Text

/-- A JSON document. The members of an object stand in the order in which the program walks them. -/
inductive JsonValue where
  | null
  | bool (value : Bool)
  | number (text : Chars)
  | string (text : Chars)
  | array (items : List JsonValue)
  | object (fields : List (Chars × JsonValue))

namespace JsonValue

/-! ### Equality -/

mutual

/-- The documents are the same. -/
def same : JsonValue → JsonValue → Bool
  | .null, .null => true
  | .bool a, .bool b => a = b
  | .number a, .number b => a = b
  | .string a, .string b => a = b
  | .array a, .array b => sameItems a b
  | .object a, .object b => sameFields a b
  | _, _ => false

/-- The items are the same. -/
def sameItems : List JsonValue → List JsonValue → Bool
  | [], [] => true
  | a :: as, b :: bs => same a b && sameItems as bs
  | _, _ => false

/-- The members are the same. -/
def sameFields : List (Chars × JsonValue) → List (Chars × JsonValue) → Bool
  | [], [] => true
  | (name, a) :: as, (name', b) :: bs => decide (name = name') && same a b && sameFields as bs
  | _, _ => false

end

mutual

theorem same_iff : ∀ a b : JsonValue, same a b = true ↔ a = b
  | .null, b => by cases b <;> simp [same]
  | .bool _, b => by cases b <;> simp [same]
  | .number _, b => by cases b <;> simp [same]
  | .string _, b => by cases b <;> simp [same]
  | .array items, b => by
    cases b <;> simp [same]
    exact sameItems_iff items _
  | .object fields, b => by
    cases b <;> simp [same]
    exact sameFields_iff fields _

theorem sameItems_iff : ∀ a b : List JsonValue, sameItems a b = true ↔ a = b
  | [], b => by cases b <;> simp [sameItems]
  | a :: as, b => by
    cases b with
    | nil => simp [sameItems]
    | cons b bs => rw [sameItems, Bool.and_eq_true, same_iff a b, sameItems_iff as bs, List.cons.injEq]

theorem sameFields_iff : ∀ a b : List (Chars × JsonValue), sameFields a b = true ↔ a = b
  | [], b => by cases b <;> simp [sameFields]
  | (name, a) :: as, b => by
    cases b with
    | nil => simp [sameFields]
    | cons b bs =>
      rw [sameFields, Bool.and_eq_true, Bool.and_eq_true, decide_eq_true_iff, same_iff a b.2, sameFields_iff as bs,
        List.cons.injEq, Prod.ext_iff]

end

instance : DecidableEq JsonValue := fun a b => decidable_of_iff (same a b = true) (same_iff a b)

/-! ### Texts -/

/-- A hexadecimal digit. -/
def hexDigit (n : ℕ) : Char := Nat.digitChar (n % 16)

/-- `encoding/json`'s text of a character inside a string. -/
def renderChar (c : Char) : Chars :=
  if c = '"' ∨ c = '\\' then ['\\', c]
  else if c = '\n' then ['\\', 'n']
  else if c = '\r' then ['\\', 'r']
  else if c = '\t' then ['\\', 't']
  else if c = '\x08' then ['\\', 'b']
  else if c = '\x0c' then ['\\', 'f']
  else if c.toNat < 32 ∨ c = '<' ∨ c = '>' ∨ c = '&' ∨ c = '\u2028' ∨ c = '\u2029' then
    ['\\', 'u', hexDigit (c.toNat / 4096), hexDigit (c.toNat / 256), hexDigit (c.toNat / 16), hexDigit c.toNat]
  else [c]

/-- The text of a string. -/
def renderString (text : Chars) : Chars := '"' :: text.flatMap renderChar ++ ['"']

mutual

/-- `json.Marshal` of a document whose objects are already ordered. -/
def render : JsonValue → Chars
  | .null => chars "null"
  | .bool true => chars "true"
  | .bool false => chars "false"
  | .number text => text
  | .string text => renderString text
  | .array items => '[' :: renderItems items ++ [']']
  | .object fields => '\x7b' :: renderFields fields ++ ['\x7d']

/-- The items, with commas between them. -/
def renderItems : List JsonValue → Chars
  | [] => []
  | [item] => item.render
  | item :: next :: items => item.render ++ ',' :: renderItems (next :: items)

/-- The members, with commas between them. -/
def renderFields : List (Chars × JsonValue) → Chars
  | [] => []
  | [(name, value)] => renderString name ++ ':' :: value.render
  | (name, value) :: next :: fields => renderString name ++ ':' :: value.render ++ ',' :: renderFields (next :: fields)

end

/-- The members of a map, in the order of their names. -/
def sortFields {α : Type*} (fields : List (Chars × α)) : List (Chars × α) :=
  fields.insertionSort fun a b => a.1 ≤ b.1

end JsonValue

end GoEtl.Text
