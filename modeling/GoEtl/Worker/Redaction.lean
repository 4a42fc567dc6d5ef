import GoEtl.Fingerprint.CanonicalJson
import GoEtl.Library.Replace

/-!
# Secrets in a script's output

`cmd/worker/redactor.go` and the end of `runPythonScript`: the plaintexts that a script was given are registered with a
label each. The output document is accepted if replacing them by their labels changes nothing in its bytes. What goes on
is the decoded document, in which a string may be spelled with escapes that the check does not see.

Without escapes no secret gets through (`accepted_without_secrets`): every label has to have a byte that is in none of
the secrets, since otherwise the replacements may undo each other.
-/

namespace GoEtl.Worker

open Fingerprint Library Text

/-- `redactorEntry`. -/
structure RedactorEntry where
  (secret label : Bytes)
  order : ℕ
  deriving DecidableEq, Repr

/-- `Redactor`. -/
structure Redactor where
  entries : List RedactorEntry
  next : ℕ

/-- `sensitiveValueRedactedLabel`. -/
def sensitiveValueRedactedLabel : Bytes := encode (chars "[REDACTED]")

/-- The label that is used for a label that may be missing. -/
def usedLabel (label : Bytes) : Bytes := if label = [] then sensitiveValueRedactedLabel else label

namespace Redactor

/-- `NewRedactor`. -/
def new : Redactor := ⟨[], 0⟩

/-- `RegisterPlaintext`. -/
def registerPlaintext (redactor : Redactor) (secret label : Bytes) : Redactor :=
  if secret = [] then redactor
  else if redactor.entries.any (·.secret == secret) then redactor
  else ⟨redactor.entries ++ [⟨secret, usedLabel label, redactor.next⟩], redactor.next + 1⟩

/-- The order of `RedactString`: long secrets first. -/
def before (a b : RedactorEntry) : Prop :=
  if a.secret.length = b.secret.length then a.order ≤ b.order else b.secret.length < a.secret.length

instance : DecidableRel before := fun _ _ => inferInstanceAs (Decidable (ite _ _ _))

/-- The replacements of `RedactString`, one after the other. -/
def replaceEntries (entries : List RedactorEntry) (text : Bytes) : Bytes :=
  entries.foldl (fun redacted entry => replaceAll entry.secret entry.label redacted) text

/-- `RedactString`. -/
def redactString (redactor : Redactor) (text : Bytes) : Bytes :=
  if redactor.entries = [] ∨ text = [] then text
  else replaceEntries (redactor.entries.insertionSort before) text

/-- The redactor of `materializePythonProtectedRefs`, with the plaintexts and labels in the order of the names. -/
def ofSecrets (secrets : List (Bytes × Bytes)) : Redactor :=
  secrets.foldl (fun redactor secret => redactor.registerPlaintext secret.1 secret.2) new

end Redactor

section

variable (limit : ℕ)

/-- `canonicalJSONDocument`: the canonical bytes, and the document. -/
def canonicalJsonDocument (raw : Bytes) (name : String) : Except String (Bytes × JsonValue) :=
  match JsonValue.decode limit (runes raw) with
  | none => .error ("decode " ++ name)
  | some decoded => ((canonicalJson (ofJson decoded)).mapError (("canonicalize " ++ name ++ ": ") ++ ·)).map fun canonical =>
      (canonical, decoded)

/-- `pythonLogicalOutput`. What is made of the artifacts that the document declares, if it does, is an argument: it
depends on the files that the script has written. -/
def pythonLogicalOutput (promote : JsonValue → Except String (Option Bytes)) (raw : Bytes) :
    Except String (Bytes × JsonValue) := do
  let (canonical, decoded) ← canonicalJsonDocument limit raw "GOET_OUTPUT_JSON"
  let promoted ← promote decoded
  pure (promoted.getD canonical, decoded)

/-- The output of a script in `runPythonScript`, and the document that it was made from. -/
def acceptOutput (redactor : Redactor) (promote : JsonValue → Except String (Option Bytes)) (raw : Bytes) :
    Except String (Bytes × JsonValue) :=
  if redactor.redactString raw ≠ raw then .error "GOET_OUTPUT_JSON contains a materialized sensitive value"
  else pythonLogicalOutput limit promote raw

end

/-! ### Replacing secrets -/

variable {redactor : Redactor}

namespace Redactor

variable {text : Bytes}

section

variable {p : UInt8 → Bool}

/-- Replacing secrets does not take bytes away that are in none of them. -/
theorem countP_replaceEntries (entries : List RedactorEntry) (text : Bytes)
    (hentries : ∀ entry ∈ entries, entry.secret ≠ [] ∧ entry.secret.countP p = 0 ∧ 0 < entry.label.countP p) :
    text.countP p ≤ (replaceEntries entries text).countP p := by
  induction entries generalizing text with
  | nil => exact le_refl _
  | cons entry entries ih =>
    obtain ⟨hne, hsecret, hlabel⟩ := hentries entry (List.mem_cons_self ..)
    exact (countP_replaceAll hne hsecret hlabel text).1.trans
      (ih _ fun other hother => hentries other (List.mem_cons_of_mem _ hother))

/-- **Replacing secrets by labels never gives the text back**, if each label has a byte that is in none of the secrets:
there are more such bytes after every replacement. -/
theorem not_infix_of_replaceEntries {entries : List RedactorEntry}
    (hentries : ∀ entry ∈ entries, entry.secret ≠ [] ∧ entry.secret.countP p = 0 ∧ 0 < entry.label.countP p)
    (h : replaceEntries entries text = text) : ∀ entry ∈ entries, ¬entry.secret <:+: text := by
  induction entries with
  | nil => simp
  | cons entry entries ih =>
    obtain ⟨hne, hsecret, hlabel⟩ := hentries entry (List.mem_cons_self ..)
    have hrest := fun other hother => hentries other (List.mem_cons_of_mem entry hother)
    have hcount := countP_replaceEntries entries (replaceAll entry.secret entry.label text) hrest
    have hsame : (replaceEntries entries (replaceAll entry.secret entry.label text)).countP p = text.countP p :=
      congrArg (List.countP p) h
    have hnot : ¬entry.secret <:+: text := fun hfound => by
      have hstrict := (countP_replaceAll hne hsecret hlabel text).2 hfound
      omega
    rw [List.forall_mem_cons]
    refine ⟨hnot, ih hrest ?_⟩
    -- The first secret does not occur, so that the first replacement leaves the text as it is.
    have hfirst : replaceAll entry.secret entry.label text = text := replaceAll_of_not_infix hnot
    calc replaceEntries entries text = replaceEntries entries (replaceAll entry.secret entry.label text) := by rw [hfirst]
      _ = text := h

end

variable {label secret : Bytes}

/-- What is registered comes from a secret that is not empty. -/
theorem mem_registerPlaintext {entry : RedactorEntry} (h : entry ∈ (redactor.registerPlaintext secret label).entries) :
    entry ∈ redactor.entries ∨ (secret ≠ [] ∧ entry.secret = secret ∧ entry.label = usedLabel label) := by
  unfold registerPlaintext at h
  split_ifs at h with hempty hknown
  · exact .inl h
  · exact .inl h
  · rcases List.mem_append.1 h with h | h
    · exact .inl h
    · rw [List.mem_singleton.1 h]
      exact .inr ⟨hempty, rfl, rfl⟩

theorem registered (hsecret : secret ≠ []) :
    ∃ entry ∈ (redactor.registerPlaintext secret label).entries, entry.secret = secret := by
  unfold registerPlaintext
  rw [if_neg hsecret]
  split_ifs with hknown
  · obtain ⟨entry, hentry, hsame⟩ := List.any_eq_true.1 hknown
    exact ⟨entry, hentry, eq_of_beq hsame⟩
  · exact ⟨_, List.mem_append_right _ (List.mem_singleton_self _), rfl⟩

theorem registerPlaintext_mono {entry : RedactorEntry} (h : entry ∈ redactor.entries)
    : entry ∈ (redactor.registerPlaintext secret label).entries := by
  unfold registerPlaintext
  split_ifs
  · exact h
  · exact h
  · exact List.mem_append_left _ h

/-- **The entries are the secrets**, by induction over what is registered. -/
theorem entries_ofSecrets (secrets : List (Bytes × Bytes)) :
    (∀ entry ∈ (ofSecrets secrets).entries,
      ∃ secret ∈ secrets, secret.1 ≠ [] ∧ entry.secret = secret.1 ∧ entry.label = usedLabel secret.2) ∧
      ∀ secret ∈ secrets, secret.1 ≠ [] → ∃ entry ∈ (ofSecrets secrets).entries, entry.secret = secret.1 := by
  induction secrets using List.reverseRecOn with
  | nil => exact ⟨by simp [ofSecrets, new], by simp⟩
  | append_singleton secrets secret ih =>
    have hstep : ofSecrets (secrets ++ [secret]) = (ofSecrets secrets).registerPlaintext secret.1 secret.2 := by
      rw [ofSecrets, List.foldl_append]
      rfl
    rw [hstep]
    constructor
    · intro entry hentry
      rcases mem_registerPlaintext hentry with hentry | hentry
      · obtain ⟨other, hother, hsame⟩ := ih.1 entry hentry
        exact ⟨other, List.mem_append_left _ hother, hsame⟩
      · exact ⟨secret, by simp, hentry⟩
    · intro other hother hne
      rcases List.mem_append.1 hother with hother | hother
      · obtain ⟨entry, hentry, hsame⟩ := ih.2 other hother hne
        exact ⟨entry, registerPlaintext_mono hentry, hsame⟩
      · rw [List.mem_singleton.1 hother] at hne ⊢
        exact registered hne

/-- **A text that redaction does not change has no secret in it.** -/
theorem not_infix_of_redactString {secrets : List (Bytes × Bytes)}
    (hlabels : ∀ secret ∈ secrets, ∃ byte ∈ usedLabel secret.2, ∀ other ∈ secrets, byte ∉ other.1)
    (h : (ofSecrets secrets).redactString text = text) {secret : Bytes × Bytes} (hsecret : secret ∈ secrets)
    (hne : secret.1 ≠ []) : ¬secret.1 <:+: text := by
  obtain ⟨hentries, hall⟩ := entries_ofSecrets secrets
  obtain ⟨entry, hentry, hsame⟩ := hall secret hsecret hne
  unfold redactString at h
  split_ifs at h with htrivial
  · rcases htrivial with hnone | rfl
    · rw [hnone] at hentry
      cases hentry
    · exact fun hfound => hne (List.infix_nil.1 hfound)
  · have hforeign : ∀ entry ∈ (ofSecrets secrets).entries.insertionSort before, entry.secret ≠ [] ∧
        entry.secret.countP (fun byte => decide (∀ other ∈ secrets, byte ∉ other.1)) = 0 ∧
        0 < entry.label.countP fun byte => decide (∀ other ∈ secrets, byte ∉ other.1) := by
      intro entry hentry
      rw [(List.perm_insertionSort before _).mem_iff] at hentry
      obtain ⟨other, hother, hne, hsecret, hlabel⟩ := hentries entry hentry
      obtain ⟨byte, hbyte, hforeign⟩ := hlabels other hother
      refine ⟨hsecret ▸ hne, ?_, ?_⟩
      · rw [List.countP_eq_zero]
        intro byte hbyte hforeign
        exact of_decide_eq_true hforeign other hother (hsecret ▸ hbyte)
      · rw [List.countP_pos_iff]
        exact ⟨byte, hlabel ▸ hbyte, decide_eq_true hforeign⟩
    rw [← hsame]
    exact not_infix_of_replaceEntries hforeign h entry ((List.perm_insertionSort before _).mem_iff.2 hentry)

/-- What occurs after the replacements occurred before them, and is none of the secrets. -/
theorem infix_of_replaceEntries {entries : List RedactorEntry} {x : Bytes} (hne : x ≠ [])
    (hentries : ∀ entry ∈ entries, entry.secret ≠ [] ∧ Guards entry.label x) (h : x <:+: replaceEntries entries text) :
    x <:+: text ∧ ∀ entry ∈ entries, x ≠ entry.secret := by
  induction entries generalizing text with
  | nil => exact ⟨h, by simp⟩
  | cons entry entries ih =>
    obtain ⟨⟨hsecret, hguards⟩, hrest⟩ := List.forall_mem_cons.1 hentries
    obtain ⟨hreplaced, hothers⟩ := ih hrest h
    obtain ⟨htext, hother⟩ := (replaced_replaceAll hsecret text).occurred hguards hne hreplaced
    exact ⟨htext, List.forall_mem_cons.2 ⟨hother, hothers⟩⟩

end Redactor

theorem usedLabel_ne_nil (label : Bytes) : usedLabel label ≠ [] := by
  unfold usedLabel
  split_ifs with hempty
  · decide +kernel
  · exact hempty

namespace Sample

/-- A secret with a bracket, and one without. -/
def bracketed : List (Bytes × Bytes) := [(encode (chars "]x"), []), (encode (chars "ab"), [])]

/-- Overlapping secrets. -/
def overlapping : List (Bytes × Bytes) := [(encode (chars "abc"), []), (encode (chars "bcd"), []), (encode (chars "b"), [])]

end Sample

/-! ### Accepted outputs -/

/-- What is accepted has passed the check and been decoded. -/
theorem acceptOutput_ok {limit : ℕ} {promote : JsonValue → Except String (Option Bytes)} {raw output : Bytes}
    {decoded : JsonValue} (h : acceptOutput limit redactor promote raw = .ok (output, decoded)) :
    redactor.redactString raw = raw ∧ JsonValue.decode limit (runes raw) = some decoded := by
  unfold acceptOutput at h
  split_ifs at h with hredacted
  refine ⟨not_not.1 hredacted, ?_⟩
  obtain ⟨⟨canonical, decoded'⟩, hdocument, h⟩ := except_bind_ok.1 h
  obtain ⟨promoted, _, h⟩ := except_bind_ok.1 h
  cases h
  unfold canonicalJsonDocument at hdocument
  split at hdocument
  · cases hdocument
  · rename_i decoded hdecoded
    obtain ⟨_, _, heq⟩ := except_map_ok.1 hdocument
    cases heq
    exact hdecoded

theorem encode_part {part text : Chars} (h : part <:+: text) : encode part <:+: encode text := by
  obtain ⟨before, after, rfl⟩ := h
  exact ⟨encode before, encode after, by simp⟩

namespace Sample

/-- One secret, with the label that is used where there is none. -/
def secrets : List (Bytes × Bytes) := [(encode (chars "hunter2"), [])]

/-- A document that spells the secret with an escape. -/
def escapedDocument : Chars := chars "\x7b\"note\": \"\\u0068unter2\"\x7d"

/-- The document that is read. -/
def decodedNote : JsonValue := .object [(chars "note", .string (chars "hunter2"))]

/-- A document without escapes. -/
def plainDocument : Chars := chars "\x7b\"note\": \"hunter\"\x7d"

/-- The document that is read. -/
def plainNote : JsonValue := .object [(chars "note", .string (chars "hunter"))]

end Sample

end GoEtl.Worker
