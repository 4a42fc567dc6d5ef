import GoEtl.Library.Replace
import GoEtl.Text.Chars

/-!
# Replacing placeholders by name

Several parts of the program put values into a text with `strings.ReplaceAll`, one name after the other, where a
placeholder is a dollar sign and a name in braces. `renderParts` is such a text, put together from the texts between the
placeholders and what stands for the names: placeholders that are still there, or values.

Replacing the placeholder of one name gives the text with its value and everything else unchanged
(`replaceAll_renderParts`) if no placeholder of the name begins in the texts between (`Inert`), and what stands for the
other names is a placeholder or leaves no beginning of one (`Plain`). A value that is empty, begins with a brace, ends
with a dollar sign or has a beginning of a placeholder in it may make one together with what is around it.
-/

namespace GoEtl.Text

open Library

/-- The placeholder of a name. -/
def placeholder (name : Chars) : Chars := '$' :: '\x7b' :: (name ++ ['\x7d'])

theorem placeholder_ne_nil (name : Chars) : placeholder name ≠ [] := List.cons_ne_nil _ _

/-- A value that makes no beginning of a placeholder, in itself or with what is around it. -/
structure Plain (value : Chars) : Prop where
  nonempty : value ≠ []
  head : value.head? ≠ some '\x7b'
  last : value.getLast? ≠ some '$'
  opening : ¬opening <:+: value

instance (value : Chars) : Decidable (Plain value) :=
  decidable_of_iff (value ≠ [] ∧ value.head? ≠ some '\x7b' ∧ value.getLast? ≠ some '$' ∧ ¬Text.opening <:+: value)
    ⟨fun ⟨a, b, c, d⟩ => ⟨a, b, c, d⟩, fun ⟨a, b, c, d⟩ => ⟨a, b, c, d⟩⟩

/-- No placeholder of a name begins in a text, whatever comes after it that does not begin with a brace. -/
def Inert (name text : Chars) : Prop :=
  ∀ rest : Chars, rest.head? ≠ some '\x7b' → ∀ i < text.length, ¬placeholder name <+: text.drop i ++ rest

/-! ### Where placeholders begin -/

/-- A placeholder begins where there is its opening. -/
theorem not_placeholder_of_opening {text rest : Chars} (hopening : ¬opening <:+: text)
    (hnext : text.getLast? ≠ some '$' ∨ rest.head? ≠ some '\x7b') (name : Chars) :
    ∀ i < text.length, ¬placeholder name <+: text.drop i ++ rest := by
  intro i hi hbegins
  have hsuffix : text.drop i <:+ text := List.drop_suffix i text
  rcases hdrop : text.drop i with _ | ⟨c, _ | ⟨d, more⟩⟩
  · have hlength := congrArg List.length hdrop
    rw [List.length_drop, List.length_nil] at hlength
    omega
  · rw [hdrop, List.singleton_append, placeholder, List.cons_prefix_cons] at hbegins
    rw [hdrop] at hsuffix
    obtain ⟨before, hbefore⟩ := hsuffix
    rcases hnext with hlast | hhead
    · rw [← hbefore, List.getLast?_concat, ← hbegins.1] at hlast
      exact hlast rfl
    · cases rest with
      | nil => exact absurd hbegins.2 (by simp)
      | cons e rest =>
        rw [List.cons_prefix_cons] at hbegins
        rw [← hbegins.2.1] at hhead
        exact hhead rfl
  · rw [hdrop, List.cons_append, List.cons_append, placeholder, List.cons_prefix_cons, List.cons_prefix_cons] at hbegins
    rw [hdrop, ← hbegins.1, ← hbegins.2.1] at hsuffix
    exact hopening ((List.prefix_append ['$', '\x7b'] more).isInfix.trans hsuffix.isInfix)

theorem inert_of_opening {text : Chars} (h : ¬opening <:+: text) (name : Chars) : Inert name text :=
  fun _ hrest => not_placeholder_of_opening h (.inr hrest) name

theorem takeWhile_closed {name : Chars} (hname : '\x7d' ∉ name) (rest : Chars) :
    (name ++ '\x7d' :: rest).takeWhile (· ≠ '\x7d') = name := by
  have hall : ∀ c ∈ name, decide (c ≠ '\x7d') = true := by
    intro c hc
    simp only [decide_eq_true_eq]
    rintro rfl
    exact hname hc
  rw [List.takeWhile_append_of_pos hall]
  simp

/-- A name in braces is read up to the first closing brace. -/
theorem eq_of_prefix_of_closed {name name' rest : Chars} (hname : '\x7d' ∉ name) (hname' : '\x7d' ∉ name')
    (h : name ++ ['\x7d'] <+: name' ++ '\x7d' :: rest) : name = name' := by
  obtain ⟨after, hafter⟩ := h
  rw [List.append_assoc] at hafter
  calc name = (name ++ '\x7d' :: after).takeWhile (· ≠ '\x7d') := (takeWhile_closed hname after).symm
    _ = (name' ++ '\x7d' :: rest).takeWhile (· ≠ '\x7d') := congrArg _ hafter
    _ = name' := takeWhile_closed hname' rest

/-- In the placeholder of a name no placeholder of another begins. -/
theorem not_placeholder_of_ne {name name' rest : Chars} (hne : name ≠ name') (hname : '\x7d' ∉ name)
    (hname' : '\x7d' ∉ name') (hdollar : '$' ∉ name') :
    ∀ i < (placeholder name').length, ¬placeholder name <+: (placeholder name').drop i ++ rest := by
  intro i hi hbegins
  cases i with
  | zero =>
    rw [List.drop_zero, placeholder, placeholder, List.cons_append, List.cons_append, List.cons_prefix_cons,
      List.cons_prefix_cons, List.append_assoc] at hbegins
    exact hne (eq_of_prefix_of_closed hname hname' hbegins.2.2)
  | succ i =>
    have hdropped : (placeholder name').drop (i + 1) = ('\x7b' :: (name' ++ ['\x7d'])).drop i := rfl
    rw [hdropped] at hbegins
    rcases hdrop : ('\x7b' :: (name' ++ ['\x7d'])).drop i with _ | ⟨c, more⟩
    · have hlength := congrArg List.length hdrop
      rw [List.length_drop, List.length_nil] at hlength
      simp only [placeholder, List.length_cons] at hi hlength
      omega
    · rw [hdrop, placeholder, List.cons_append, List.cons_prefix_cons] at hbegins
      have hmem : '$' ∈ ('\x7b' :: (name' ++ ['\x7d'])).drop i := by
        rw [hdrop, hbegins.1]
        exact List.mem_cons_self ..
      have hdollar' : '$' ∈ '\x7b' :: (name' ++ ['\x7d']) := List.mem_of_mem_drop hmem
      simp [hdollar] at hdollar'

/-! ### Texts with placeholders -/

/-- A text with something in the place of every name: the texts before the names, and the text after the last one. -/
def renderParts (value : Chars → Chars) : List (Chars × Chars) → Chars → Chars
  | [], last => last
  | (before, name) :: parts, last => before ++ (value name ++ renderParts value parts last)

/-- What may stand for a name: its placeholder, or a value that makes none. -/
def Stands (value : Chars → Chars) (name : Chars) : Prop := value name = placeholder name ∨ Plain (value name)

theorem Stands.head {value : Chars → Chars} {name : Chars} (h : Stands value name) (rest : Chars) :
    (value name ++ rest).head? ≠ some '\x7b' := by
  rcases h with h | h
  · rw [h]
    simp [placeholder]
  · rcases hvalue : value name with _ | ⟨c, more⟩
    · exact absurd hvalue h.nonempty
    · have := h.head
      rw [hvalue] at this
      simpa using this

/-- **Replacing one placeholder** puts the value in the place of the name and changes nothing else. -/
theorem replaceAll_renderParts {value : Chars → Chars} {name text last : Chars} {parts : List (Chars × Chars)}
    (hname : '\x7d' ∉ name) (hparts : ∀ part ∈ parts, Inert name part.1 ∧ '$' ∉ part.2 ∧ '\x7d' ∉ part.2)
    (hlast : Inert name last) (hstands : ∀ part ∈ parts, Stands value part.2) (hhole : value name = placeholder name) :
    replaceAll (placeholder name) text (renderParts value parts last) =
      renderParts (Function.update value name text) parts last := by
  refine Replaced.eq (placeholder_ne_nil name) ?_
  induction parts with
  | nil =>
    have hpass : Replaced (placeholder name) text (last ++ []) (last ++ []) := .pass last (hlast [] (by simp)) .nil
    simpa [renderParts] using hpass
  | cons part parts ih =>
    obtain ⟨before, other⟩ := part
    obtain ⟨hbefore, hdollar, hclose⟩ := hparts (before, other) (List.mem_cons_self ..)
    have hother := hstands (before, other) (List.mem_cons_self ..)
    have hrest := ih (fun part hpart => hparts part (List.mem_cons_of_mem _ hpart))
      fun part hpart => hstands part (List.mem_cons_of_mem _ hpart)
    refine .pass before (hbefore _ (hother.head _)) ?_
    by_cases hsame : other = name
    · subst hsame
      rw [Function.update_self, hhole]
      exact .hit hrest
    · rw [Function.update_of_ne hsame]
      refine .pass _ ?_ hrest
      rcases hother with hplaceholder | hplain
      · dsimp only at hplaceholder
        rw [hplaceholder]
        exact not_placeholder_of_ne (fun h => hsame h.symm) hname hclose hdollar
      · exact not_placeholder_of_opening hplain.opening (.inl hplain.last) name

end GoEtl.Text
