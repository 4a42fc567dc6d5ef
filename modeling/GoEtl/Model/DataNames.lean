import GoEtl.Library.Transaction
import GoEtl.Text.Chars

/-!
# Names and relative paths of data

The checks of `internal/model/data_location.go` and `artifact_path.go`. What `unicode` counts as letters and digits
beyond ASCII, and how `fmt` quotes a text, are parameters.
-/

namespace GoEtl.Model

open Library Text

/-- The functions of `unicode` and the quoting of `fmt` that the checks use. -/
structure Unicode where
  (isLetter isDigit : Char → Bool)
  quote : Chars → String
  quoteRune : Char → String
  ascii : ∀ c : Char, c.toNat < 128 → isLetter c = c.isAlpha ∧ isDigit c = c.isDigit

/-- The characters of names. -/
def Unicode.isNameChar (unicode : Unicode) (c : Char) : Bool :=
  unicode.isLetter c || unicode.isDigit c || c == '_' || c == '-' || c == '.'

/-- `validateDataName`. -/
def validateDataName (unicode : Unicode) (value : Chars) (field : String) : Except String Unit :=
  if trim value = [] then .error (field ++ " is required")
  else if trim value ≠ value then .error (field ++ " must not contain leading or trailing whitespace")
  else
    match value.find? fun c => !unicode.isNameChar c with
    | some c => .error (field ++ " contains unsupported character " ++ unicode.quoteRune c)
    | none => .ok ()

/-- `hasArtifactDrivePrefix`. The second byte is a colon only if the first character is of ASCII. -/
def hasArtifactDrivePrefix : Chars → Bool
  | first :: second :: _ => first.isAlpha && second == ':'
  | _ => false

/-- The check of a segment in `ValidateArtifactRelativePath`. -/
def validateArtifactSegment (segment : Chars) : Except String Unit :=
  if segment = [] then .error "artifact path must not contain empty segments"
  else if segment = ['.'] then .error "artifact path must not contain . segments"
  else if segment = ['.', '.'] then .error "artifact path must not contain .. segments"
  else .ok ()

/-- `ValidateArtifactRelativePath`. Cleaning changes nothing in a path without empty segments and dots, so that the
checks of the cleaned path pass. -/
def validateArtifactRelativePath (value : Chars) : Except String Chars :=
  if trim value = [] then .error "artifact path is required"
  else if trim value ≠ value then .error "artifact path must not contain leading or trailing whitespace"
  else if value.contains '\\' then .error "artifact path must use forward slashes"
  else if value.head? = some '/' then .error "artifact path must be relative"
  else if hasArtifactDrivePrefix value then .error "artifact path must be relative"
  else do
    (value.splitOn '/').forM validateArtifactSegment
    pure value

/-- `validateDataRelativePath`. -/
def validateDataRelativePath (value : Chars) (field : String) : Except String Chars :=
  (validateArtifactRelativePath value).mapError ((field ++ ": ") ++ ·)

/-- `if p { return error }`. -/
def refuse (p : Prop) [Decidable p] (text : String) : Except String Unit := if p then .error text else .ok ()

theorem refuse_ok {p : Prop} [Decidable p] {text : String} : refuse p text = .ok () ↔ ¬p := by
  unfold refuse
  by_cases h : p <;> simp [h]

theorem refuse_bind_ok {α : Type} {p : Prop} [Decidable p] {text : String} {f : Unit → Except String α} {a : α} :
    (refuse p text >>= f) = .ok a ↔ ¬p ∧ f () = .ok a := by
  rw [except_bind_ok, ← @refuse_ok p _ text]
  exact ⟨fun ⟨_, hp, h⟩ => ⟨hp, h⟩, fun ⟨hp, h⟩ => ⟨(), hp, h⟩⟩

/-- A check of a value that may be missing. -/
def checkSome {α : Type} (check : α → Except String Unit) : Option α → Except String Unit
  | some value => check value
  | none => .ok ()

/-- `switch value { case known: return nil; default: return error }`. -/
def validateChoice (unicode : Unicode) (known : List Chars) (what : String) (value : Chars) : Except String Unit :=
  if known.contains value then .ok () else .error ("unsupported " ++ what ++ " " ++ unicode.quote value)

/-! ### What passes -/

/-- **A name has characters of names only.** -/
theorem validateDataName_ok {unicode : Unicode} {value : Chars} {field : String}
    (h : validateDataName unicode value field = .ok ()) : value ≠ [] ∧ ∀ c ∈ value, unicode.isNameChar c = true := by
  unfold validateDataName at h
  split_ifs at h with hempty htrim
  cases hfind : value.find? fun c => !unicode.isNameChar c with
  | some c =>
    rw [hfind] at h
    cases h
  | none =>
    refine ⟨?_, fun c hc => ?_⟩
    · rintro rfl
      exact hempty rfl
    · simpa using List.find?_eq_none.1 hfind c hc

/-- The characters of placeholders are not characters of names. -/
theorem not_mem_of_validateDataName {unicode : Unicode} {value : Chars} {field : String}
    (h : validateDataName unicode value field = .ok ()) {c : Char} (hc : c ∈ ['$', '\x7b', '\x7d', '\\', '/']) : c ∉ value := by
  intro hmem
  have hname := (validateDataName_ok h).2 c hmem
  simp only [List.mem_cons, List.not_mem_nil, or_false] at hc
  have hascii : c.toNat < 128 := by rcases hc with rfl | rfl | rfl | rfl | rfl <;> decide
  obtain ⟨hletter, hdigit⟩ := unicode.ascii c hascii
  rw [Unicode.isNameChar, hletter, hdigit] at hname
  rcases hc with rfl | rfl | rfl | rfl | rfl <;> revert hname <;> decide

namespace Sample

/-- The functions of `unicode` on ASCII. -/
def ascii : Unicode where
  isLetter c := c.isAlpha
  isDigit c := c.isDigit
  quote value := "\"" ++ String.ofList value ++ "\""
  quoteRune c := "'" ++ c.toString ++ "'"
  ascii _ _ := ⟨rfl, rfl⟩

end Sample

end GoEtl.Model
