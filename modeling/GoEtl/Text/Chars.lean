import Mathlib.Algebra.Ring.Int.Defs
import Mathlib.Data.List.Infix
import GoEtl.Text.Space

/-!
# Texts as lists of characters

The functions of `strings` and `strconv` that the variable and workflow packages use, on lists of characters.
Placeholders are written as a dollar sign and braces, and a backslash before the dollar sign makes them text: `escape`
puts the backslashes in, `unescape` takes them out, and nothing else is changed by the two (`unescape_escape`).
-/

namespace GoEtl.Text

/-- A text. -/
abbrev Chars := List Char

/-- The characters of a string. -/
def chars (text : String) : Chars := text.toList

/-- `strings.TrimSpace`. -/
def trim (text : Chars) : Chars := ((text.dropWhile isSpace).reverse.dropWhile isSpace).reverse

/-- `strings.Contains`. -/
def hasPart (part text : Chars) : Bool := decide (part <:+: text)

/-- `strings.ContainsAny`. -/
def hasAny (set text : Chars) : Bool := text.any fun c => set.contains c

/-- The beginning of a placeholder. -/
def opening : Chars := ['$', '\x7b']

/-! ### Numbers -/

/-- The value of a nonempty text of digits. -/
def digitsValue (text : Chars) : Option ℕ :=
  if text ≠ [] ∧ text.all (·.isDigit) then some (Nat.ofDigitChars 10 text 0) else none

/-- The integers of 64 bits. -/
def IsInt (n : ℤ) : Prop := -2 ^ 63 ≤ n ∧ n < 2 ^ 63

instance {n : ℤ} : Decidable (IsInt n) := inferInstanceAs (Decidable (_ ∧ _))

/-- The integer, if it is one of 64 bits. -/
def int64 (n : ℤ) : Option ℤ := if IsInt n then some n else none

/-- `strconv.Atoi`. -/
def atoi (text : Chars) : Option ℤ :=
  match text with
  | '-' :: digits => (digitsValue digits).bind fun n => int64 (-n)
  | '+' :: digits => (digitsValue digits).bind fun n => int64 n
  | digits => (digitsValue digits).bind fun n => int64 n

/-- `strconv.Itoa`. -/
def itoa : ℤ → Chars
  | .ofNat n => Nat.toDigits 10 n
  | .negSucc n => '-' :: Nat.toDigits 10 (n + 1)

theorem digitsValue_toDigits (n : ℕ) : digitsValue (Nat.toDigits 10 n) = some n := by
  have hdigits : (Nat.toDigits 10 n).all (·.isDigit) = true :=
    List.all_eq_true.2 fun c hc => Nat.isDigit_of_mem_toDigits (by decide) (by decide) hc
  rw [digitsValue, if_pos ⟨Nat.toDigits_ne_nil, hdigits⟩, Nat.ofDigitChars_ten_toDigits]

theorem int64_eq_some {n m : ℤ} : int64 n = some m ↔ n = m ∧ IsInt n := by
  rw [int64, Option.ite_none_right_eq_some, and_comm, Option.some.injEq]

/-- A number that begins with a digit has no sign. -/
theorem atoi_digits {text : Chars} (h : text.all (·.isDigit) = true) :
    atoi text = (digitsValue text).bind fun n => int64 n := by
  unfold atoi
  split
  · simp at h
  · simp at h
  · rfl

/-- **Printing an integer of 64 bits and reading it back gives it.** -/
theorem atoi_itoa {n : ℤ} (h : IsInt n) : atoi (itoa n) = some n := by
  cases n with
  | ofNat n =>
    have hdigits : (Nat.toDigits 10 n).all (·.isDigit) = true :=
      List.all_eq_true.2 fun c hc => Nat.isDigit_of_mem_toDigits (by decide) (by decide) hc
    rw [itoa, atoi_digits hdigits, digitsValue_toDigits, Option.bind_some, int64_eq_some]
    exact ⟨rfl, h⟩
  | negSucc n =>
    show (digitsValue (Nat.toDigits 10 (n + 1))).bind (fun n => int64 (-n)) = _
    rw [digitsValue_toDigits, Option.bind_some, int64_eq_some]
    exact ⟨rfl, h⟩

theorem atoi_range {text : Chars} {n : ℤ} (h : atoi text = some n) : IsInt n := by
  unfold atoi at h
  split at h
  all_goals
    obtain ⟨m, _, hm⟩ := Option.bind_eq_some_iff.1 h
    obtain ⟨rfl, hrange⟩ := int64_eq_some.1 hm
    exact hrange

/-! ### Escapes -/

/-- `strings.ReplaceAll` of an escaped opening by an opening. -/
def unescape : Chars → Chars
  | '\\' :: '$' :: '\x7b' :: rest => '$' :: '\x7b' :: unescape rest
  | c :: rest => c :: unescape rest
  | [] => []

/-- `strings.ReplaceAll` of an opening by an escaped one. -/
def escape : Chars → Chars
  | '$' :: '\x7b' :: rest => '\\' :: '$' :: '\x7b' :: escape rest
  | c :: rest => c :: escape rest
  | [] => []

/-- The first character after escaping, where it is a brace, was the first before. -/
theorem escape_eq_brace {text rest : Chars} (h : escape text = '\x7b' :: rest) : ∃ tail, text = '\x7b' :: tail := by
  unfold escape at h
  split at h
  · simp at h
  · obtain ⟨rfl, -⟩ := List.cons.inj h
    exact ⟨_, rfl⟩
  · simp at h

/-- Escaping leaves no opening at the beginning. -/
theorem escape_ne_opening (text rest : Chars) : escape text ≠ '$' :: '\x7b' :: rest := by
  intro h
  unfold escape at h
  split at h
  · simp at h
  · rename_i c tail hnot
    obtain ⟨rfl, htail⟩ := List.cons.inj h
    obtain ⟨more, rfl⟩ := escape_eq_brace htail
    exact hnot more rfl rfl
  · simp at h

/-- **Taking the escapes out again gives the text.** -/
theorem unescape_escape (text : Chars) : unescape (escape text) = text := by
  fun_induction escape text with
  | case1 rest ih => rw [unescape, ih]
  | case2 c rest hnot ih =>
    -- The character is not the backslash of an escape: no opening follows it.
    rw [unescape, ih]
    intro more _ hmore
    exact escape_ne_opening rest more hmore
  | case3 => rfl

end GoEtl.Text
