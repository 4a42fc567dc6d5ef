import Mathlib.Data.Nat.Notation

/-!
# JSON texts

The store accepts a payload, an output or a submission context only when it is a JSON
text, which Go decides with `json.Valid` and SQLite, once more, with `json_valid` in a
`CHECK`. Both are the same grammar with different limits on nesting, so one scanner is
modelled, with the limit as a parameter: `encoding/json`'s scanner, a pushdown automaton
that reads one character at a time and keeps a stack of the objects and arrays it is in.
-/

namespace GoEtl.Text

namespace Json

/-- What the innermost open object or array expects next. -/
inductive Frame where
  /-- An object, before the colon of a member. -/
  | objectKey
  /-- An object, after the colon of a member. -/
  | objectValue
  /-- An array. -/
  | arrayValue
  deriving DecidableEq, Repr

/-- The scanner's position inside a value. -/
inductive Position where
  /-- Before a value. -/
  | beginValue
  /-- After `[`: a value or `]`. -/
  | beginValueOrEmpty
  /-- Before an object's key. -/
  | beginString
  /-- After an opening brace: a key or the closing brace. -/
  | beginStringOrEmpty
  /-- After a value inside an object or array. -/
  | endValue
  /-- After the top-level value. -/
  | endTop
  /-- Inside a string. -/
  | inString
  /-- After a backslash. -/
  | inStringEsc
  /-- Inside the four hexadecimal digits of an escape, with this many to come. -/
  | inStringEscU (left : ℕ)
  /-- After a minus sign. -/
  | neg
  /-- After a leading nonzero digit. -/
  | one
  /-- After a leading zero, or the end of an integer part. -/
  | zero
  /-- After the decimal point. -/
  | dot
  /-- After a digit of the fraction. -/
  | dot0
  /-- After `e` or `E`. -/
  | exponent
  /-- After the exponent's sign. -/
  | exponentSign
  /-- After a digit of the exponent. -/
  | exponent0
  /-- Inside `true`, `false` or `null`, with these letters to come. -/
  | literal (rest : List Char)
  deriving DecidableEq, Repr

/-- The scanner's state. -/
structure Scanner where
  /-- Where it is in the current value. -/
  position : Position
  /-- The open objects and arrays, innermost first. -/
  stack : List Frame
  deriving DecidableEq, Repr

/-- JSON white space. -/
def isSpace (c : Char) : Bool := c == ' ' || c == '\t' || c == '\r' || c == '\n'

/-- A hexadecimal digit. -/
def isHex (c : Char) : Bool :=
  c.isDigit || ('a' ≤ c && c ≤ 'f') || ('A' ≤ c && c ≤ 'F')

/-- Open an object or array, within the nesting limit. -/
def push (maxDepth : ℕ) (stack : List Frame) (frame : Frame) (position : Position) :
    Option Scanner :=
  if stack.length + 1 ≤ maxDepth then some ⟨position, frame :: stack⟩ else none

/-- Close the innermost object or array. -/
def pop : List Frame → Option Scanner
  | [] => none
  | [_] => some ⟨.endTop, []⟩
  | _ :: stack => some ⟨.endValue, stack⟩

/-- A character after the top-level value. -/
def endTop (c : Char) : Option Scanner := if isSpace c then some ⟨.endTop, []⟩ else none

/-- A character after a value. -/
def endValue (stack : List Frame) (c : Char) : Option Scanner :=
  match stack with
  | [] => endTop c
  | frame :: outer =>
    if isSpace c then some ⟨.endValue, stack⟩ else
    match frame with
    | .objectKey => if c == ':' then some ⟨.beginValue, .objectValue :: outer⟩ else none
    | .objectValue =>
      if c == ',' then some ⟨.beginString, .objectKey :: outer⟩
      else if c == '\x7d' then pop stack else none
    | .arrayValue =>
      if c == ',' then some ⟨.beginValue, stack⟩ else if c == ']' then pop stack else none

/-- A character where a value starts. -/
def beginValue (maxDepth : ℕ) (stack : List Frame) (c : Char) : Option Scanner :=
  if isSpace c then some ⟨.beginValue, stack⟩
  else if c == '\x7b' then push maxDepth stack .objectKey .beginStringOrEmpty
  else if c == '[' then push maxDepth stack .arrayValue .beginValueOrEmpty
  else if c == '"' then some ⟨.inString, stack⟩
  else if c == '-' then some ⟨.neg, stack⟩
  else if c == '0' then some ⟨.zero, stack⟩
  else if c == 't' then some ⟨.literal ['r', 'u', 'e'], stack⟩
  else if c == 'f' then some ⟨.literal ['a', 'l', 's', 'e'], stack⟩
  else if c == 'n' then some ⟨.literal ['u', 'l', 'l'], stack⟩
  else if c.isDigit then some ⟨.one, stack⟩
  else none

/-- A character where an object's key starts. -/
def beginString (stack : List Frame) (c : Char) : Option Scanner :=
  if isSpace c then some ⟨.beginString, stack⟩
  else if c == '"' then some ⟨.inString, stack⟩ else none

/-- A character after an integer part that may not grow. -/
def afterInteger (stack : List Frame) (c : Char) : Option Scanner :=
  if c == '.' then some ⟨.dot, stack⟩
  else if c == 'e' || c == 'E' then some ⟨.exponent, stack⟩
  else endValue stack c

/-- A character where the exponent's digits must start. -/
def exponentDigits (stack : List Frame) (c : Char) : Option Scanner :=
  if c.isDigit then some ⟨.exponent0, stack⟩ else none

/-- One character of the text. -/
def Scanner.step (maxDepth : ℕ) (s : Scanner) (c : Char) : Option Scanner :=
  match s.position with
  | .beginValue => beginValue maxDepth s.stack c
  | .beginValueOrEmpty =>
    if isSpace c then some s
    else if c == ']' then endValue s.stack c else beginValue maxDepth s.stack c
  | .beginString => beginString s.stack c
  | .beginStringOrEmpty =>
    if isSpace c then some s
    else if c == '\x7d' then endValue (.objectValue :: s.stack.tail) c else beginString s.stack c
  | .endValue => endValue s.stack c
  | .endTop => endTop c
  | .inString =>
    if c == '"' then some ⟨.endValue, s.stack⟩
    else if c == '\\' then some ⟨.inStringEsc, s.stack⟩
    else if c.toNat < 0x20 then none else some s
  | .inStringEsc =>
    if c ∈ ['b', 'f', 'n', 'r', 't', '\\', '/', '"'] then some ⟨.inString, s.stack⟩
    else if c == 'u' then some ⟨.inStringEscU 3, s.stack⟩ else none
  | .inStringEscU left =>
    if isHex c then
      some ⟨match left with | 0 => .inString | n + 1 => .inStringEscU n, s.stack⟩
    else none
  | .neg =>
    if c == '0' then some ⟨.zero, s.stack⟩
    else if c.isDigit then some ⟨.one, s.stack⟩ else none
  | .one => if c.isDigit then some s else afterInteger s.stack c
  | .zero => afterInteger s.stack c
  | .dot => if c.isDigit then some ⟨.dot0, s.stack⟩ else none
  | .dot0 =>
    if c.isDigit then some s
    else if c == 'e' || c == 'E' then some ⟨.exponent, s.stack⟩ else endValue s.stack c
  | .exponent =>
    if c == '+' || c == '-' then some ⟨.exponentSign, s.stack⟩ else exponentDigits s.stack c
  | .exponentSign => exponentDigits s.stack c
  | .exponent0 => if c.isDigit then some s else endValue s.stack c
  | .literal rest =>
    match rest with
    | [] => none
    | [d] => if c == d then some ⟨.endValue, s.stack⟩ else none
    | d :: more => if c == d then some ⟨.literal more, s.stack⟩ else none

/-- The whole text is one JSON value: after it, one more blank ends the value at the top level. -/
def valid (maxDepth : ℕ) (text : String) : Bool :=
  match (text.toList ++ [' ']).foldlM (Scanner.step maxDepth) ⟨.beginValue, []⟩ with
  | some s => s.position == .endTop
  | none => false

end Json

/-- `json.Valid`: Go's scanner allows 10000 nested objects and arrays. -/
def jsonValid (text : String) : Bool := Json.valid 10000 text

/-- `json_valid`, in the tables' checks: SQLite allows a depth of 1000. -/
def sqliteJsonValid (text : String) : Bool := Json.valid 1000 text

example : jsonValid "[1, -2.5e+3, \x7b\"a\": [true, null]\x7d]" = true := by decide +kernel

example : jsonValid "[1,]" = false := by decide +kernel

end GoEtl.Text
