import GoEtl.Text.Utf8
import GoEtl.Variables.Resolver

/-!
# Placeholders in any string

A text with placeholders is any string of Go. `parseInterpolationTokens` goes through it byte by byte and the templates
of a fan-out are gone through rune by rune; `segments` is both, with the number of bytes that a step outside of
placeholders takes as an argument. The reference in a placeholder is read as its runes.

That the two find the same placeholders (`segments_runeSize`) is since only bytes of ASCII begin or end one. For a
string that is an encoded text they are those of the scanner of characters, with which the resolver is modelled
(`segments_scan`), and the interpolated string is the encoded interpolated text (`interpolateBytes_encode`).
-/

namespace GoEtl.Variables

open Text

/-- A placeholder: where it begins and ends, and its trimmed reference. -/
structure Segment where
  (start stop : ℕ)
  reference : Chars
  deriving DecidableEq, Repr

/-- Where a scanner is: before bytes that it skips, or inside a placeholder, after some of its text. -/
inductive Place where
  | skipping (left : ℕ)
  | inside (start : ℕ) (text : Bytes)

/-- The scanner of placeholders. The first argument is the size of a step, the second reads a reference, the third is
the error of a placeholder that does not end. The numbers are the bytes of a backslash, a dollar sign and the braces. -/
def segments (size : Bytes → ℕ) (read : Bytes → Except String Chars) (unterminated : String) :
    Place → ℕ → Bytes → Except String (List Segment)
  | .skipping (left + 1), index, _ :: rest => segments size read unterminated (.skipping left) (index + 1) rest
  | .skipping 0, index, 0x5c :: 0x24 :: 0x7b :: rest => segments size read unterminated (.skipping 0) (index + 3) rest
  | .skipping 0, index, 0x24 :: 0x7b :: rest => segments size read unterminated (.inside index []) (index + 2) rest
  | .skipping 0, index, byte :: rest =>
    segments size read unterminated (.skipping (size (byte :: rest) - 1)) (index + 1) rest
  | .skipping _, _, [] => .ok []
  | .inside start text, index, byte :: rest =>
    if byte = 0x7d then do
      let reference ← read text
      let more ← segments size read unterminated (.skipping 0) (index + 1) rest
      pure (⟨start, index + 1, reference⟩ :: more)
    else segments size read unterminated (.inside start (text ++ [byte])) (index + 1) rest
  | .inside _ _, _, [] => .error unterminated

/-- The size of a step of a byte. -/
def oneByte (_ : Bytes) : ℕ := 1

/-- The reference in a placeholder, checked. -/
def readReference (check : Chars → Except String Unit) (text : Bytes) : Except String Chars := do
  check (trim (runes text))
  pure (trim (runes text))

/-- `parseInterpolationTokens`, of any string. -/
def interpolationSegments (text : Bytes) : Except String (List Segment) :=
  segments oneByte (readReference validateReferenceExpression) "unterminated interpolation token" (.skipping 0) 0 text

/-- `unescapeExpression` and `unescapeFanOutTemplate`, of any string. -/
def unescapeBytes : Bytes → Bytes
  | 0x5c :: 0x24 :: 0x7b :: rest => 0x24 :: 0x7b :: unescapeBytes rest
  | byte :: rest => byte :: unescapeBytes rest
  | [] => []

/-- The loop that puts values in the place of placeholders. -/
def fill {ε : Type} (value : Chars → Except ε Bytes) (text : Bytes) : ℕ → Bytes → List Segment → Except ε Bytes
  | previous, done, [] => .ok (done ++ unescapeBytes (text.drop previous))
  | previous, done, segment :: rest => do
    let filling ← value segment.reference
    fill value text segment.stop (done ++ unescapeBytes ((text.take segment.start).drop previous) ++ filling) rest

/-- The text of a reference. -/
def interpolatedReference (config : ResolverConfig) (refer : Refer) (context : ResolutionContext) (reference : Chars) :
    Except LocatedError Bytes := do
  let resolved ← resolveReferenceText refer context reference
  let text ← locate context (interpolationText config.times resolved)
  pure (encode text)

/-- `interpolate`, of any string, without the sensitivity of the result. -/
def interpolateBytes (config : ResolverConfig) (refer : Refer) (context : ResolutionContext) (text : Bytes) :
    Except LocatedError Bytes := do
  let found ← locate context (interpolationSegments text)
  fill (interpolatedReference config refer context) text 0 [] found

/-! ### Bytes and runes -/

section

variable {size : Bytes → ℕ} {read : Bytes → Except String Chars} {unterminated : String}

theorem segments_skipping (skipped rest : Bytes) (index : ℕ) :
    segments size read unterminated (.skipping skipped.length) index (skipped ++ rest) =
      segments size read unterminated (.skipping 0) (index + skipped.length) rest := by
  induction skipped generalizing index with
  | nil => rfl
  | cons byte skipped ih =>
    have hstep := ih (index + 1)
    rw [Nat.add_right_comm, Nat.add_assoc] at hstep
    exact hstep

/-- A byte that is neither a backslash nor a dollar sign is passed. -/
theorem segments_plain {byte : UInt8} (hbackslash : byte ≠ 0x5c) (hdollar : byte ≠ 0x24) (index : ℕ) (rest : Bytes) :
    segments oneByte read unterminated (.skipping 0) index (byte :: rest) =
      segments oneByte read unterminated (.skipping 0) (index + 1) rest := by
  rw [segments]
  · rfl
  · exact fun _ hbyte _ => hbackslash hbyte
  · exact fun _ hbyte _ => hdollar hbyte

theorem segments_beyond_ascii {bytes : Bytes} (hbytes : ∀ byte ∈ bytes, 128 ≤ byte) (index : ℕ) (rest : Bytes) :
    segments oneByte read unterminated (.skipping 0) index (bytes ++ rest) =
      segments oneByte read unterminated (.skipping 0) (index + bytes.length) rest := by
  induction bytes generalizing index with
  | nil => rfl
  | cons byte bytes ih =>
    have hbyte := hbytes byte (List.mem_cons_self ..)
    rw [List.cons_append, segments_plain (by rintro rfl; revert hbyte; decide) (by rintro rfl; revert hbyte; decide),
      ih (fun b hb => hbytes b (List.mem_cons_of_mem _ hb)), List.length_cons, Nat.add_assoc, Nat.add_comm 1]

/-- **Going through a string by bytes or by runes finds the same placeholders.** By induction on its length: a rune
that is skipped has no byte that begins a placeholder. -/
theorem segments_runeSize (length : ℕ) : ∀ (text : Bytes), text.length ≤ length → ∀ index : ℕ,
    segments runeSize read unterminated (.skipping 0) index text =
        segments oneByte read unterminated (.skipping 0) index text ∧
      ∀ start inner, segments runeSize read unterminated (.inside start inner) index text =
        segments oneByte read unterminated (.inside start inner) index text := by
  induction length with
  | zero =>
    intro text htext index
    rw [List.length_eq_zero_iff.1 (Nat.le_zero.1 htext)]
    exact ⟨rfl, fun _ _ => rfl⟩
  | succ length ih =>
    intro text htext index
    match text, htext with
    | [], _ => exact ⟨rfl, fun _ _ => rfl⟩
    | byte :: rest, htext =>
      have hrest : rest.length ≤ length := by simpa using htext
      refine ⟨?_, fun start inner => ?_⟩
      · by_cases hescape : ∃ after, byte = 0x5c ∧ rest = 0x24 :: 0x7b :: after
        · obtain ⟨after, rfl, rfl⟩ := hescape
          rw [segments, segments]
          exact (ih after (by simp at hrest; omega) _).1
        by_cases hopening : ∃ after, byte = 0x24 ∧ rest = 0x7b :: after
        · obtain ⟨after, rfl, rfl⟩ := hopening
          rw [segments, segments]
          exact (ih after (by simp at hrest; omega) _).2 _ _
        have hplain : ∀ after, byte = 0x5c → rest = 0x24 :: 0x7b :: after → False :=
          fun after hbyte hafter => hescape ⟨after, hbyte, hafter⟩
        have hplain' : ∀ after, byte = 0x24 → rest = 0x7b :: after → False :=
          fun after hbyte hafter => hopening ⟨after, hbyte, hafter⟩
        obtain ⟨more, after, hmore, hlength, hascii⟩ := runeSize_skips byte rest
        have hone : segments oneByte read unterminated (.skipping 0) index (byte :: rest) =
            segments oneByte read unterminated (.skipping 0) (index + 1) rest := by
          rw [segments]
          · rfl
          · exact hplain
          · exact hplain'
        rw [hone]
        rw [segments]
        · rw [← hlength, hmore, segments_skipping, segments_beyond_ascii hascii]
          refine (ih after ?_ _).1
          rw [hmore, List.length_append] at hrest
          omega
        · exact hplain
        · exact hplain'
      · rw [segments, segments]
        by_cases hclose : byte = 0x7d
        · rw [if_pos hclose, if_pos hclose, (ih rest hrest (index + 1)).1]
        · rw [if_neg hclose, if_neg hclose, (ih rest hrest (index + 1)).2]

end

/-! ### Encoded texts -/

/-- The placeholders of an encoded text, with the text between them. -/
inductive Pieces (text : Bytes) : ℕ → List Segment → List Token → Chars → Prop where
  | last {previous : ℕ} {last : Chars} (h : text.drop previous = encode last) : Pieces text previous [] [] last
  | token {previous : ℕ} {segment : Segment} {token : Token} {rest : List Segment} {tokens : List Token} {last : Chars}
      (hbefore : (text.take segment.start).drop previous = encode token.before)
      (hreference : segment.reference = token.reference) (hrest : Pieces text segment.stop rest tokens last) :
      Pieces text previous (segment :: rest) (token :: tokens) last

/-- The two scanners have the same error, or the same placeholders. -/
def SameScan (text : Bytes) (previous : ℕ) : Except String (List Segment) → Except String (List Token × Chars) → Prop
  | .ok found, .ok (tokens, last) => Pieces text previous found tokens last
  | .error e, .error e' => e = e'
  | _, _ => False

theorem not_encode_escape {c : Char} {rest : Chars} {byte : UInt8} {after : Bytes}
    (hescape : ∀ after, c = '\\' → rest = '$' :: '\x7b' :: after → False) (hone : String.utf8EncodeChar c = [byte])
    (hbyte : byte = 0x5c) (hrest : encode rest = 0x24 :: 0x7b :: after) : False := by
  obtain ⟨rest', rfl, hrest'⟩ := encode_eq_cons (by decide) hrest
  obtain ⟨after', rfl, _⟩ := encode_eq_cons (by decide) hrest'.symm
  exact hescape after' (mem_utf8EncodeChar (show 0x5c < 128 by decide) (by simp [hone, hbyte])).1 rfl

section

variable {check : Chars → Except String Unit} {unterminated : String}

/-- A character that begins nothing is passed. -/
theorem segments_char {c : Char} {rest : Chars} (hescape : ∀ after, c = '\\' → rest = '$' :: '\x7b' :: after → False)
    (hopening : ∀ after, c = '$' → rest = '\x7b' :: after → False) {read : Bytes → Except String Chars} (index : ℕ) :
    segments oneByte read unterminated (.skipping 0) index (encode (c :: rest)) =
      segments oneByte read unterminated (.skipping 0) (index + (String.utf8EncodeChar c).length) (encode rest) := by
  rw [encode_cons]
  rcases utf8EncodeChar_ascii c with ⟨hc, hone⟩ | ⟨_, hall⟩
  · rw [hone, List.singleton_append, segments]
    · rfl
    · intro after hbyte hrest
      exact not_encode_escape hescape hone hbyte hrest
    · intro after hbyte hrest
      obtain ⟨after', rfl, _⟩ := encode_eq_cons (by decide) hrest
      exact hopening after' (mem_utf8EncodeChar (show 0x24 < 128 by decide) (by simp [hone, hbyte])).1 rfl
  · exact segments_beyond_ascii hall index (encode rest)

/-- A character inside a placeholder that does not end it belongs to its text. -/
theorem segments_inside {c : Char} (hc : c ≠ '\x7d') {read : Bytes → Except String Chars} (start index : ℕ)
    (inner rest : Bytes) :
    segments oneByte read unterminated (.inside start inner) index (String.utf8EncodeChar c ++ rest) =
      segments oneByte read unterminated (.inside start (inner ++ String.utf8EncodeChar c))
        (index + (String.utf8EncodeChar c).length) rest := by
  have hbytes : ∀ bytes : Bytes, (∀ byte ∈ bytes, byte ≠ 0x7d) → ∀ index inner,
      segments oneByte read unterminated (.inside start inner) index (bytes ++ rest) =
        segments oneByte read unterminated (.inside start (inner ++ bytes)) (index + bytes.length) rest := by
    intro bytes hbytes
    induction bytes with
    | nil => simp
    | cons byte bytes ih =>
      intro index inner
      rw [List.cons_append, segments, if_neg (hbytes byte (List.mem_cons_self ..)),
        ih (fun b hb => hbytes b (List.mem_cons_of_mem _ hb)), List.append_assoc, List.length_cons, Nat.add_assoc,
        Nat.add_comm 1]
      rfl
  refine hbytes _ (fun byte hbyte heq => hc ?_) index inner
  exact (mem_utf8EncodeChar (by decide) (heq ▸ hbyte)).1

/-- The rest of a string after a part of it. -/
theorem drop_after (part : Bytes) {text rest : Bytes} {previous : ℕ} (h : text.drop previous = part ++ rest) :
    text.drop (previous + part.length) = rest := by
  rw [← List.drop_drop, h, List.drop_left]

/-- What stands between two places of a string. -/
theorem drop_take_between {text part rest : Bytes} {previous : ℕ} (h : text.drop previous = part ++ rest) :
    (text.take (previous + part.length)).drop previous = part := by
  rw [List.drop_take, h, Nat.add_sub_cancel_left, List.take_left]

/-- **The scanner of bytes and the scanner of characters agree.** The text after the last placeholder that has been
read is the one that the scanner of characters has kept, followed by what is still to be read. -/
theorem segments_scan (text : Bytes) (state : Scanning) (rest : Chars) : ∀ previous : ℕ,
    match state with
    | .outside before => text.drop previous = encode before ++ encode rest →
      SameScan text previous
        (segments oneByte (readReference check) unterminated (.skipping 0) (previous + (encode before).length) (encode rest))
        (scan unterminated check state rest)
    | .inside before reference => text.drop previous = encode before ++ (0x24 :: 0x7b :: (encode reference ++ encode rest)) →
      SameScan text previous
        (segments oneByte (readReference check) unterminated (.inside (previous + (encode before).length) (encode reference))
          (previous + (encode before).length + 2 + (encode reference).length) (encode rest))
        (scan unterminated check state rest) := by
  fun_induction scan unterminated check state rest with
  | case1 before rest ih =>
    intro previous h
    have hstep := ih previous (by rw [encode_append, List.append_assoc]; exact h)
    rw [encode_append, List.length_append, ← Nat.add_assoc] at hstep
    exact hstep
  | case2 before rest ih =>
    intro previous h
    exact ih previous h
  | case3 before c rest hescape hopening ih =>
    intro previous h
    have hstep := ih previous (by simpa [encode_append, encode_cons] using h)
    rw [encode_append, List.length_append, ← Nat.add_assoc] at hstep
    simp only [segments_char hescape hopening]
    simpa [encode_cons] using hstep
  | case4 before =>
    intro previous h
    exact .last (by simpa using h)
  | case5 before reference rest ih =>
    intro previous h
    have hinner : text.drop (previous + (encode before).length) = 0x24 :: 0x7b :: encode reference ++ 0x7d :: encode rest :=
      drop_after _ h
    have hstop : text.drop (previous + (encode before).length + 2 + (encode reference).length + 1) = encode rest := by
      rw [Nat.add_right_comm _ 2]
      exact drop_after [0x7d] (drop_after (0x24 :: 0x7b :: encode reference) hinner)
    have hrest := ih _ hstop
    rw [encode_nil, List.length_nil, Nat.add_zero] at hrest
    have hclose : encode ('\x7d' :: rest) = 0x7d :: encode rest := rfl
    rw [hclose, segments, if_pos rfl, readReference, runes_encode]
    cases check (trim reference) with
    | error e => exact rfl
    | ok _ =>
      show SameScan text previous (segments _ _ _ _ _ _ >>= _) (scan _ _ _ _ >>= _)
      generalize segments oneByte (readReference check) unterminated (.skipping 0) _ (encode rest) = found at hrest ⊢
      generalize scan unterminated check (.outside []) rest = scanned at hrest ⊢
      match found, scanned, hrest with
      | .error _, .error _, heq => exact heq
      | .ok found, .ok (tokens, last), hpieces => exact .token (drop_take_between h) rfl hpieces
  | case6 before reference c rest hclose ih =>
    intro previous h
    have hstep := ih previous (by simpa [encode_append, encode_cons] using h)
    simp only [encode_cons, segments_inside hclose]
    rw [encode_append, List.length_append, ← Nat.add_assoc] at hstep
    simpa [encode_cons] using hstep
  | case7 before reference =>
    intro previous h
    rfl

end

theorem unescapeBytes_beyond_ascii {bytes : Bytes} (hbytes : ∀ byte ∈ bytes, 128 ≤ byte) (rest : Bytes) :
    unescapeBytes (bytes ++ rest) = bytes ++ unescapeBytes rest := by
  induction bytes with
  | nil => rfl
  | cons byte bytes ih =>
    rw [List.cons_append, unescapeBytes, ih fun b hb => hbytes b (List.mem_cons_of_mem _ hb), List.cons_append]
    rintro _ rfl _
    exact absurd (hbytes _ (List.mem_cons_self ..)) (by decide)

theorem unescapeBytes_encode (text : Chars) : unescapeBytes (encode text) = encode (unescape text) := by
  fun_induction unescape text with
  | case1 rest ih =>
    have hencode : encode ('\\' :: '$' :: '\x7b' :: rest) = 0x5c :: 0x24 :: 0x7b :: encode rest := rfl
    rw [hencode, unescapeBytes, ih]
    rfl
  | case2 c rest hescape ih =>
    rw [encode_cons, encode_cons, ← ih]
    rcases utf8EncodeChar_ascii c with ⟨hc, hone⟩ | ⟨_, hall⟩
    · rw [hone, List.singleton_append, unescapeBytes, List.singleton_append]
      intro after hbyte hrest
      exact not_encode_escape hescape hone hbyte hrest
    · exact unescapeBytes_beyond_ascii hall _
  | case3 => rfl

/-- Filling the placeholders of an encoded text is interpolation. -/
theorem fill_pieces (config : ResolverConfig) (refer : Refer) (context : ResolutionContext) {text : Bytes} {previous : ℕ}
    {found : List Segment} {tokens : List Token} {last : Chars} (h : Pieces text previous found tokens last) :
    ∀ done : Interpolated, fill (interpolatedReference config refer context) text previous (encode done.text) found =
      (interpolateTokens config refer context done tokens).map fun done => encode (done.text ++ unescape last) := by
  induction h with
  | last h =>
    intro done
    rw [fill, h, unescapeBytes_encode, ← encode_append]
    rfl
  | @token previous segment token rest tokens last hbefore hreference hrest ih =>
    intro done
    rw [fill, interpolateTokens, hbefore, hreference, unescapeBytes_encode, interpolatedReference]
    cases resolveReferenceText refer context token.reference with
    | error e => rfl
    | ok resolved =>
      show ((locate context (interpolationText config.times resolved) >>= _) >>= _) =
        Except.map _ (locate context (interpolationText config.times resolved) >>= _)
      cases locate context (interpolationText config.times resolved) with
      | error e => rfl
      | ok value =>
        have hseen : (done.see resolved.mark).text = done.text := by
          unfold Interpolated.see
          split <;> rfl
        refine Eq.trans ?_ (ih { done.see resolved.mark with
          text := (done.see resolved.mark).text ++ unescape token.before ++ value })
        rw [hseen, encode_append, encode_append]
        rfl

/-- **Interpolation of an encoded text** is the encoded interpolated text, with the same errors. -/
theorem interpolateBytes_encode (config : ResolverConfig) (refer : Refer) (context : ResolutionContext) (text : Chars) :
    interpolateBytes config refer context (encode text) =
      (interpolate config refer context text).map fun done => encode done.text := by
  have hscan : SameScan (encode text) 0 (interpolationSegments (encode text)) (parseInterpolationTokens text) :=
    segments_scan (encode text) (.outside []) text 0 rfl
  unfold interpolateBytes interpolate
  generalize interpolationSegments (encode text) = found at hscan ⊢
  generalize parseInterpolationTokens text = scanned at hscan ⊢
  match found, scanned, hscan with
  | .error e, .error _, rfl => rfl
  | .ok found, .ok (tokens, last), hpieces =>
    refine (fill_pieces config refer context hpieces ⟨[], false, [], []⟩).trans ?_
    show _ = Except.map _ (interpolateTokens config refer context ⟨[], false, [], []⟩ tokens >>= _)
    cases interpolateTokens config refer context ⟨[], false, [], []⟩ tokens <;> rfl

end GoEtl.Variables
