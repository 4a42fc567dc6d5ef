import GoEtl.Text.Bytes
import GoEtl.Text.Chars

/-!
# UTF-8

A string of Go is any sequence of bytes. Most functions look for bytes of ASCII in it, which are never part of the
encoding of another character; `unicode/utf8` and conversions to runes take it apart into the characters that are
encoded in it, one byte at a time where there is none.
-/

namespace GoEtl.Text

/-- The bytes of a text. -/
def encode (text : Chars) : Bytes := text.flatMap String.utf8EncodeChar

@[simp] theorem encode_nil : encode [] = [] := rfl

theorem encode_cons (c : Char) (text : Chars) : encode (c :: text) = String.utf8EncodeChar c ++ encode text :=
  List.flatMap_cons

@[simp] theorem encode_append (text text' : Chars) : encode (text ++ text') = encode text ++ encode text' :=
  List.flatMap_append

/-- The character whose encoding a string begins with. -/
def firstRune (s : Bytes) : Option Char := s.toByteArray.utf8DecodeChar? 0

/-- The size of `utf8.DecodeRuneInString`. -/
def runeSize : Bytes → ℕ
  | [] => 0
  | s => match firstRune s with
    | some c => c.utf8Size
    | none => 1

/-- The runes of a string, after some bytes of a rune that has been read. -/
def runesAfter : ℕ → Bytes → Chars
  | _, [] => []
  | left + 1, _ :: rest => runesAfter left rest
  | 0, byte :: rest => (firstRune (byte :: rest)).getD '\ufffd' :: runesAfter (runeSize (byte :: rest) - 1) rest

/-- `[]rune`: a byte that no encoding begins with is read as U+FFFD. -/
def runes (s : Bytes) : Chars := runesAfter 0 s

/-! ### The encoding of a character -/

theorem firstRune_encode (c : Char) (rest : Bytes) : firstRune (String.utf8EncodeChar c ++ rest) = some c := by
  rw [firstRune, List.toByteArray_append]
  exact ByteArray.utf8DecodeChar?_utf8EncodeChar_append

theorem firstRune_eq_some {s : Bytes} {c : Char} (h : firstRune s = some c) : ∃ rest, s = String.utf8EncodeChar c ++ rest := by
  obtain ⟨rest, hrest⟩ := ByteArray.exists_of_utf8DecodeChar?_eq_some h
  refine ⟨rest.data.toList, ?_⟩
  have hdata := congrArg (fun bytes => bytes.data.toList) hrest
  simpa using hdata

/-- A character is encoded as itself if it is of ASCII, and otherwise as bytes that are not. -/
theorem utf8EncodeChar_ascii (c : Char) :
    (c.toNat < 128 ∧ String.utf8EncodeChar c = [UInt8.ofNat c.toNat]) ∨
      (128 ≤ c.toNat ∧ ∀ byte ∈ String.utf8EncodeChar c, 128 ≤ byte) := by
  have hval : c.val.toNat = c.toNat := rfl
  by_cases hc : c.toNat < 128
  · exact .inl ⟨hc, by simp [String.utf8EncodeChar, hval, show c.toNat ≤ 127 by omega]⟩
  · refine .inr ⟨by omega, fun byte hbyte => ?_⟩
    simp only [String.utf8EncodeChar, hval, if_neg (show ¬c.toNat ≤ 127 by omega)] at hbyte
    rw [UInt8.le_iff_toNat_le]
    split_ifs at hbyte <;> simp only [List.mem_cons, List.not_mem_nil, or_false] at hbyte
    · rcases hbyte with rfl | rfl <;> simp <;> omega
    · rcases hbyte with rfl | rfl | rfl <;> simp <;> omega
    · rcases hbyte with rfl | rfl | rfl | rfl <;> simp <;> omega

/-- The first byte of a character's encoding and those after it. -/
theorem utf8EncodeChar_eq_cons (c : Char) :
    ∃ byte more, String.utf8EncodeChar c = byte :: more ∧ more.length = c.utf8Size - 1 := by
  cases hbytes : String.utf8EncodeChar c with
  | nil => exact absurd hbytes String.utf8EncodeChar_ne_nil
  | cons byte more =>
    refine ⟨byte, more, rfl, ?_⟩
    rw [← String.length_utf8EncodeChar, hbytes, List.length_cons, Nat.add_sub_cancel]

theorem runeSize_encode (c : Char) (rest : Bytes) : runeSize (String.utf8EncodeChar c ++ rest) = c.utf8Size := by
  obtain ⟨byte, more, hbytes, _⟩ := utf8EncodeChar_eq_cons c
  have hfirst := firstRune_encode c rest
  rw [hbytes, List.cons_append] at hfirst ⊢
  rw [runeSize, hfirst]
  exact List.cons_ne_nil _ _

theorem runesAfter_append (skipped rest : Bytes) : runesAfter skipped.length (skipped ++ rest) = runesAfter 0 rest := by
  induction skipped with
  | nil => rfl
  | cons byte skipped ih => exact ih

/-- **The runes of an encoded text are its characters.** -/
theorem runes_encode (text : Chars) : runes (encode text) = text := by
  unfold runes
  induction text with
  | nil => rfl
  | cons c text ih =>
    obtain ⟨byte, more, hbytes, hlength⟩ := utf8EncodeChar_eq_cons c
    have hfirst := firstRune_encode c (encode text)
    have hsize := runeSize_encode c (encode text)
    rw [encode_cons, hbytes, List.cons_append] at *
    rw [runesAfter, hfirst, hsize, ← hlength, runesAfter_append, ih]
    rfl

/-- A rune that does not begin with a byte of ASCII has none: its other bytes begin no character of ASCII. -/
theorem runeSize_skips (byte : UInt8) (rest : Bytes) :
    ∃ more after, rest = more ++ after ∧ more.length = runeSize (byte :: rest) - 1 ∧ ∀ b ∈ more, 128 ≤ b := by
  cases hfirst : firstRune (byte :: rest) with
  | none => exact ⟨[], rest, rfl, by simp [runeSize, hfirst], by simp⟩
  | some c =>
    obtain ⟨after, hafter⟩ := firstRune_eq_some hfirst
    obtain ⟨byte', more, hbytes, hlength⟩ := utf8EncodeChar_eq_cons c
    rw [hbytes, List.cons_append, List.cons.injEq] at hafter
    refine ⟨more, after, hafter.2, by simp [runeSize, hfirst, hlength], fun b hb => ?_⟩
    rcases utf8EncodeChar_ascii c with ⟨_, hone⟩ | ⟨_, hall⟩
    · rw [hone, List.cons.injEq] at hbytes
      simp [← hbytes.2] at hb
    · exact hall b (hbytes ▸ List.mem_cons_of_mem _ hb)

/-- A byte of ASCII in a character's encoding is all of it. -/
theorem mem_utf8EncodeChar {c : Char} {byte : UInt8} (hbyte : byte < 128) (h : byte ∈ String.utf8EncodeChar c) :
    c = Char.ofNat byte.toNat ∧ String.utf8EncodeChar c = [byte] := by
  rcases utf8EncodeChar_ascii c with ⟨hc, hone⟩ | ⟨_, hall⟩
  · obtain rfl := List.mem_singleton.1 (hone ▸ h)
    rw [UInt8.toNat_ofNat', Nat.mod_eq_of_lt (by omega), Char.ofNat_toNat]
    exact ⟨rfl, hone⟩
  · exact absurd hbyte (UInt8.not_lt.2 (hall byte h))

/-- A byte of ASCII in front of an encoded text is its first character. -/
theorem encode_eq_cons {text : Chars} {byte : UInt8} {rest : Bytes} (hbyte : byte < 128)
    (h : encode text = byte :: rest) : ∃ text', text = Char.ofNat byte.toNat :: text' ∧ rest = encode text' := by
  cases text with
  | nil => cases h
  | cons c text =>
    obtain ⟨first, more, hbytes, _⟩ := utf8EncodeChar_eq_cons c
    rw [encode_cons, hbytes, List.cons_append, List.cons.injEq] at h
    obtain ⟨hc, hone⟩ := mem_utf8EncodeChar hbyte (c := c) (by simp [hbytes, h.1])
    rw [hbytes, List.cons.injEq] at hone
    exact ⟨text, by rw [← hc], by simpa [hone.2] using h.2.symm⟩

end GoEtl.Text
