import Mathlib.Data.List.Infix

/-!
# Byte strings

Go's strings are sequences of bytes, in any encoding or none. The functions of the package `strings` that the routes,
the headers and the cache paths are read with take a string apart by a prefix or a suffix; they are defined here over
lists of any type.

`between` is the way in which three places of the source read an id out of a path: the path must begin with a prefix
and end with a suffix, which are then trimmed one after the other. The two may overlap, and `between_eq_some` says what
is read then: a path that is the prefix and the suffix with a single separator between them is read as if the id were
the rest of the suffix.
-/

namespace GoEtl.Text

/-- A string of Go. -/
abbrev Bytes := List UInt8

/-- The bytes of a string literal. -/
def bytes (s : String) : Bytes := s.toUTF8.data.toList

section

variable {α : Type*} [DecidableEq α]

/-- `strings.TrimPrefix`, with the prefix first. -/
def trimPrefix (start s : List α) : List α := if start <+: s then s.drop start.length else s

/-- `strings.TrimSuffix`, with the suffix first. -/
def trimSuffix (suffix s : List α) : List α := if suffix <:+ s then s.take (s.length - suffix.length) else s

@[simp] theorem trimPrefix_append (start s : List α) : trimPrefix start (start ++ s) = s := by
  simp [trimPrefix]

@[simp] theorem trimSuffix_append (s suffix : List α) : trimSuffix suffix (s ++ suffix) = s := by
  simp [trimSuffix]

theorem trimSuffix_of_not {suffix s : List α} (h : ¬ suffix <:+ s) : trimSuffix suffix s = s := if_neg h

/-- What stands between a prefix and a suffix, if it is not empty and has no separator. -/
def between (separator : α) (start suffix s : List α) : Option (List α) :=
  if start <+: s ∧ suffix <:+ s then
    let item := trimSuffix suffix (trimPrefix start s)
    if item ≠ [] ∧ separator ∉ item then some item else none
  else none

variable {separator : α} {start rest s item : List α}

omit [DecidableEq α] in
/-- A suffix that begins with its only separator overlaps a prefix that ends with one in that separator. -/
theorem eq_of_overlap (hrest : separator ∉ rest) (hsuffix : separator :: rest <:+ start ++ [separator] ++ item)
    (hnot : ¬ separator :: rest <:+ item) : item = rest := by
  have hitem : item <:+ separator :: rest := by
    refine List.suffix_of_suffix_length_le (List.suffix_append _ _) hsuffix ?_
    by_contra hlt
    exact hnot (List.suffix_of_suffix_length_le hsuffix (List.suffix_append _ _) (by omega))
  obtain ⟨overlap, hoverlap⟩ := hitem
  have hends : overlap <:+ start ++ [separator] := by
    rw [← hoverlap] at hsuffix
    obtain ⟨before, hbefore⟩ := hsuffix
    rw [← List.append_assoc, List.append_left_inj] at hbefore
    exact ⟨before, hbefore⟩
  rcases List.suffix_concat_iff.1 hends with rfl | ⟨shorter, rfl, _⟩
  · exact absurd (hoverlap ▸ List.suffix_rfl) hnot
  · cases shorter with
    | nil =>
      rw [List.nil_append, List.singleton_append, List.cons.injEq] at hoverlap
      exact hoverlap.2
    | cons x shorter =>
      rw [List.cons_append, List.cons_append, List.cons.injEq] at hoverlap
      exact absurd (hoverlap.2 ▸ by simp) hrest

/-- **What `between` reads**: an id without separator between the prefix and the suffix, or, where the two overlap, the
rest of the suffix. -/
theorem between_eq_some (hrest : separator ∉ rest) :
    between separator (start ++ [separator]) (separator :: rest) s = some item ↔
      item ≠ [] ∧ separator ∉ item ∧ (s = start ++ [separator] ++ item ++ separator :: rest ∨
        (s = start ++ [separator] ++ rest ∧ item = rest)) := by
  constructor
  · intro h
    unfold between at h
    split at h
    · rename_i hboth
      obtain ⟨⟨tail, rfl⟩, hsuffix⟩ := hboth
      rw [trimPrefix_append] at h
      dsimp only at h
      split at h
      · rename_i hitem
        cases h
        refine ⟨hitem.1, hitem.2, ?_⟩
        by_cases hends : separator :: rest <:+ tail
        · obtain ⟨inner, rfl⟩ := hends
          rw [trimSuffix_append]
          exact .inl (by simp)
        · rw [trimSuffix_of_not hends]
          have htail := eq_of_overlap hrest hsuffix hends
          exact .inr ⟨by rw [htail], htail⟩
      · cases h
    · cases h
  · rintro ⟨hne, hsep, rfl | ⟨rfl, rfl⟩⟩
    · have hstart : start ++ [separator] <+: start ++ [separator] ++ item ++ separator :: rest :=
        ⟨item ++ separator :: rest, by simp⟩
      rw [between, if_pos ⟨hstart, List.suffix_append _ _⟩, List.append_assoc, trimPrefix_append, trimSuffix_append]
      exact if_pos ⟨hne, hsep⟩
    · have hsuffix : separator :: item <:+ start ++ [separator] ++ item := ⟨start, by simp⟩
      have hnot : ¬ separator :: item <:+ item := fun h => absurd h.length_le (by simp)
      rw [between, if_pos ⟨List.prefix_append _ _, hsuffix⟩, trimPrefix_append, trimSuffix_of_not hnot]
      exact if_pos ⟨hne, hsep⟩

end

end GoEtl.Text
