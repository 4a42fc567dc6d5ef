import GoEtl.Text.Chars

/-!
# Reading a shell script

Token recognition and quoting of the POSIX shell, one character at a time: blanks and newlines end a word, a `#` at the
beginning of a token makes the rest of the line a comment, and a character is taken as it is after a backslash, between
single quotes, and, but for a few, between double quotes. Where an expansion or a pattern would begin there is a
`special` piece; what follows one is not read further as an expansion, so that a text is read exactly if there is none.

The lemmas say how a part of a text is read, whatever comes after it: a comment (`steps_comment`), a text between single
quotes (`steps_single`).
-/

namespace GoEtl.Text.Shell

/-- A character of a word. -/
inductive Piece where
  /-- The character itself, without quotes. -/
  | plain (c : Char)
  /-- The character itself, quoted. -/
  | quoted (c : Char)
  /-- The beginning of an expansion or a character of a pattern. -/
  | special (c : Char)
  deriving DecidableEq, Repr

/-- A token. A line is ended by `newline`. -/
inductive Token where
  | comment (text : Chars)
  | word (pieces : List Piece)
  | operator (c : Char)
  | newline
  deriving DecidableEq, Repr

/-- The single quote. -/
def single : Char := '\x27'

/-- The double quote. -/
def double : Char := '\x22'

/-- The characters of operators. -/
def operators : Chars := chars ";&|<>()"

/-- The characters that begin an expansion, also between double quotes. -/
def expansions : Chars := ['$', '\x60']

/-- The characters of patterns, and the tilde. -/
def patterns : Chars := chars "*?[~"

/-- Where the reader is. In a word it has the pieces so far. -/
inductive Mode where
  | blank
  | comment (text : Chars)
  | word (pieces : List Piece)
  | escaped (pieces : List Piece)
  | single (pieces : List Piece)
  | double (pieces : List Piece)
  | escapedDouble (pieces : List Piece)
  deriving DecidableEq, Repr

/-- A character in a word, outside of quotes, that does not end it. -/
def wordChar (pieces : List Piece) (c : Char) : Mode :=
  if c = '\\' then .escaped pieces
  else if c = single then .single pieces
  else if c = double then .double pieces
  else if c ∈ expansions ∨ c ∈ patterns then .word (pieces ++ [.special c])
  else .word (pieces ++ [.plain c])

/-- The token that a character ends a token with, if it does. -/
def delimiter (c : Char) : Option (List Token) :=
  if c = '\n' then some [.newline]
  else if c = ' ' ∨ c = '\t' then some []
  else if c ∈ operators then some [.operator c]
  else none

/-- One character: the tokens that are complete, and where the reader is then. -/
def step : Mode → Char → List Token × Mode
  | .blank, c =>
    match delimiter c with
    | some tokens => (tokens, .blank)
    | none => if c = '#' then ([], .comment []) else ([], wordChar [] c)
  | .comment text, c => if c = '\n' then ([.comment text, .newline], .blank) else ([], .comment (text ++ [c]))
  | .word pieces, c =>
    match delimiter c with
    | some tokens => (.word pieces :: tokens, .blank)
    | none => ([], wordChar pieces c)
  -- a backslash before a newline joins the lines
  | .escaped pieces, c => if c = '\n' then ([], .word pieces) else ([], .word (pieces ++ [.quoted c]))
  | .single pieces, c => if c = single then ([], .word pieces) else ([], .single (pieces ++ [.quoted c]))
  | .double pieces, c =>
    if c = double then ([], .word pieces)
    else if c = '\\' then ([], .escapedDouble pieces)
    else if c ∈ expansions then ([], .double (pieces ++ [.special c]))
    else ([], .double (pieces ++ [.quoted c]))
  | .escapedDouble pieces, c =>
    if c = '\n' then ([], .double pieces)
    else if c ∈ expansions ∨ c = double ∨ c = '\\' then ([], .double (pieces ++ [.quoted c]))
    else ([], .double (pieces ++ [.quoted '\\', .quoted c]))

/-- The end of the text. A quote must have been closed. -/
def finish : Mode → Option (List Token)
  | .blank => some []
  | .comment text => some [.comment text]
  | .word pieces => some [.word pieces]
  | _ => none

/-- The tokens of a text, and where the reader is after it. -/
def steps (mode : Mode) : Chars → List Token × Mode
  | [] => ([], mode)
  | c :: rest => ((step mode c).1 ++ (steps (step mode c).2 rest).1, (steps (step mode c).2 rest).2)

/-- The tokens of a script. -/
def read (script : Chars) : Option (List Token) :=
  (finish (steps .blank script).2).map ((steps .blank script).1 ++ ·)

/-- The tokens of each line. -/
def lines : List Token → List (List Token)
  | [] => []
  | .newline :: tokens => [] :: lines tokens
  | token :: tokens =>
    match lines tokens with
    | [] => [[token]]
    | line :: rest => (token :: line) :: rest

/-! ### Reading part by part -/

variable {mode mode' mode'' : Mode} {text text' : Chars} {tokens tokens' : List Token}

theorem steps_cons {c : Char} (h : step mode c = (tokens, mode')) (h' : steps mode' text = (tokens', mode'')) :
    steps mode (c :: text) = (tokens ++ tokens', mode'') := by
  rw [steps, h, h']

/-- One part after the other. -/
theorem steps_append (h : steps mode text = (tokens, mode')) (h' : steps mode' text' = (tokens', mode'')) :
    steps mode (text ++ text') = (tokens ++ tokens', mode'') := by
  induction text generalizing mode tokens with
  | nil =>
    cases h
    exact h'
  | cons c text ih =>
    cases h
    rw [List.cons_append, List.append_assoc]
    exact steps_cons rfl (ih rfl)

/-- A text that is read to the end of a line. -/
theorem read_eq (h : steps .blank text = (tokens, .blank)) : read text = some tokens := by
  rw [read, h, finish, Option.map_some, List.append_nil]

/-- A comment, up to the end of its line. -/
theorem steps_comment (seen : Chars) (h : '\n' ∉ text) :
    steps (.comment seen) (text ++ ['\n']) = ([.comment (seen ++ text), .newline], .blank) := by
  induction text generalizing seen with
  | nil =>
    rw [List.append_nil]
    rfl
  | cons c text ih =>
    rw [List.mem_cons, not_or] at h
    have hstep : step (.comment seen) c = ([], .comment (seen ++ [c])) := if_neg (Ne.symm h.1)
    have hrest := ih (seen ++ [c]) h.2
    rw [List.append_assoc] at hrest
    exact steps_cons hstep hrest

/-- The way to write a character between single quotes: a single quote is closed, written between double quotes, and
opened again. -/
def quoteChar (c : Char) : Chars := if c = single then [single, double, single, double, single] else [c]

/-- **A text between single quotes is read as it is.** -/
theorem steps_single (pieces : List Piece) (value : Chars) :
    steps (.single pieces) (value.flatMap quoteChar ++ [single]) = ([], .word (pieces ++ value.map .quoted)) := by
  induction value generalizing pieces with
  | nil =>
    rw [List.map_nil, List.append_nil]
    rfl
  | cons c value ih =>
    have hfirst : steps (.single pieces) (quoteChar c) = ([], .single (pieces ++ [.quoted c])) := by
      by_cases hc : c = single
      · rw [hc, quoteChar, if_pos rfl]
        rfl
      · have hstep : step (.single pieces) c = ([], .single (pieces ++ [.quoted c])) := if_neg hc
        rw [quoteChar, if_neg hc]
        exact steps_cons hstep rfl
    have hrest := ih (pieces ++ [.quoted c])
    rw [List.append_assoc] at hrest
    rw [List.flatMap_cons, List.append_assoc]
    exact steps_append hfirst hrest

/-- A quoted value that is followed by a character that ends a word. -/
theorem steps_quoted {c : Char} (value : Chars) (hend : delimiter c = some tokens) :
    steps .blank (single :: value.flatMap quoteChar ++ [single, c]) = (.word (value.map .quoted) :: tokens, .blank) := by
  have hopen : step .blank single = ([], .single []) := rfl
  have hword := steps_cons hopen (steps_single [] value)
  have hlast : steps (.word (value.map .quoted)) [c] = (.word (value.map .quoted) :: tokens, .blank) := by
    rw [steps, step, hend, steps, List.append_nil]
  have hall := steps_append hword hlast
  rwa [List.cons_append, List.append_assoc] at hall

/-! ### Lines -/

/-- The first line ends with the first newline. -/
theorem lines_append {line rest : List Token} (h : .newline ∉ line) :
    lines (line ++ .newline :: rest) = line :: lines rest := by
  induction line with
  | nil => rw [List.nil_append, lines]
  | cons token line ih =>
    rw [List.mem_cons, not_or] at h
    rw [List.cons_append, lines, ih h.2]
    exact fun htoken => h.1 htoken.symm

end GoEtl.Text.Shell
