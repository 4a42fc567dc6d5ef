import Mathlib.Data.List.Infix

/-!
# Replacing a part of a list

`replaceAll old new s` goes through a list and puts `new` in the place of every occurrence of `old`, from left to right
and without overlaps. What it does to a list that is put together from parts is said by the parts: `Replaced old new s t`
is derived from `nil`, a part that is the searched one (`hit`) and a part in which no occurrence begins (`pass`), and
then `t` is the result (`Replaced.eq`).
-/

namespace GoEtl.Library

variable {α : Type*} [DecidableEq α]

/-- Replace every occurrence, after some elements of one that has been replaced. -/
def replaceAfter (old new : List α) : ℕ → List α → List α
  | _, [] => []
  | left + 1, _ :: rest => replaceAfter old new left rest
  | 0, x :: rest =>
    if old <+: x :: rest then new ++ replaceAfter old new (old.length - 1) rest
    else x :: replaceAfter old new 0 rest

/-- Replace every occurrence of a part that is not empty. -/
def replaceAll (old new s : List α) : List α := replaceAfter old new 0 s

/-- The result of replacing, part by part. -/
inductive Replaced (old new : List α) : List α → List α → Prop where
  | nil : Replaced old new [] []
  | hit {rest rest' : List α} (h : Replaced old new rest rest') : Replaced old new (old ++ rest) (new ++ rest')
  | pass (part : List α) {rest rest' : List α} (hpart : ∀ i < part.length, ¬old <+: part.drop i ++ rest)
      (h : Replaced old new rest rest') : Replaced old new (part ++ rest) (part ++ rest')

section

variable {old new : List α}

theorem replaceAfter_append (skipped rest : List α) :
    replaceAfter old new skipped.length (skipped ++ rest) = replaceAll old new rest := by
  induction skipped with
  | nil => rfl
  | cons x skipped ih => exact ih

/-- An occurrence at the beginning is replaced. -/
theorem replaceAll_append (hold : old ≠ []) (rest : List α) :
    replaceAll old new (old ++ rest) = new ++ replaceAll old new rest := by
  cases old with
  | nil => exact absurd rfl hold
  | cons x old =>
    have hfirst : x :: old <+: x :: (old ++ rest) := List.prefix_append (x :: old) rest
    rw [replaceAll, List.cons_append, replaceAfter, if_pos hfirst, List.length_cons, Nat.add_sub_cancel,
      replaceAfter_append]

/-- A part in which no occurrence begins is kept. -/
theorem replaceAll_pass (part : List α) {rest : List α} (hpart : ∀ i < part.length, ¬old <+: part.drop i ++ rest) :
    replaceAll old new (part ++ rest) = part ++ replaceAll old new rest := by
  induction part with
  | nil => rfl
  | cons x part ih =>
    have hnot : ¬old <+: x :: (part ++ rest) := hpart 0 (by simp)
    have hrest : ∀ i < part.length, ¬old <+: part.drop i ++ rest := by
      intro i hi
      exact hpart (i + 1) (by simpa using hi)
    rw [replaceAll, List.cons_append, replaceAfter, if_neg hnot, List.cons_append]
    exact congrArg (x :: ·) (ih hrest)

/-- **Replacing part by part is replacing.** -/
theorem Replaced.eq (hold : old ≠ []) {s t : List α} (h : Replaced old new s t) : replaceAll old new s = t := by
  induction h with
  | nil => rfl
  | hit _ ih => rw [replaceAll_append hold, ih]
  | pass part hpart _ ih => rw [replaceAll_pass part hpart, ih]

/-- Every list is put together from occurrences and parts in which none begins. -/
theorem replaced_replaceAll (hold : old ≠ []) (s : List α) : Replaced old new s (replaceAll old new s) := by
  induction hlength : s.length using Nat.strong_induction_on generalizing s with
  | _ n ih =>
    subst hlength
    by_cases hfirst : old <+: s
    · obtain ⟨rest, rfl⟩ := hfirst
      have hshorter : rest.length < (old ++ rest).length := by
        have hpos := List.length_pos_iff.2 hold
        rw [List.length_append]
        omega
      rw [replaceAll_append hold]
      exact .hit (ih rest.length hshorter rest rfl)
    · cases s with
      | nil => exact .nil
      | cons x rest =>
        have hpart : ∀ i < [x].length, ¬old <+: [x].drop i ++ rest := by
          intro i hi
          obtain rfl : i = 0 := by simpa using hi
          exact hfirst
        have hpass : replaceAll old new ([x] ++ rest) = [x] ++ replaceAll old new rest := replaceAll_pass [x] hpart
        rw [← List.singleton_append, hpass]
        exact .pass [x] hpart (ih rest.length (by simp) rest rfl)

omit [DecidableEq α] in
/-- An occurrence does not begin in a part in which none begins. -/
theorem infix_of_pass {part rest : List α} (hpart : ∀ i < part.length, ¬old <+: part.drop i ++ rest)
    (h : old <:+: part ++ rest) : old <:+: rest := by
  obtain ⟨before, after, hwhole⟩ := h
  have hbegins : old <+: (part ++ rest).drop before.length := by
    rw [← hwhole, List.append_assoc, List.drop_left]
    exact List.prefix_append old after
  by_cases hlt : before.length < part.length
  · rw [List.drop_append_of_le_length hlt.le] at hbegins
    exact absurd hbegins (hpart _ hlt)
  · rw [List.drop_append, List.drop_eq_nil_of_le (Nat.le_of_not_lt hlt), List.nil_append] at hbegins
    exact hbegins.isInfix.trans (List.drop_suffix _ rest).isInfix

omit [DecidableEq α] in
/-- **Replacing adds elements of a kind** that is in the new part and not in the old one, if there is anything to replace. -/
theorem Replaced.countP_le {p : α → Bool} (hne : old ≠ []) (hold : old.countP p = 0) (hnew : 0 < new.countP p) {s t : List α}
    (h : Replaced old new s t) : s.countP p ≤ t.countP p ∧ (old <:+: s → s.countP p < t.countP p) := by
  induction h with
  | nil => exact ⟨le_refl _, fun hinfix => absurd (List.infix_nil.1 hinfix) hne⟩
  | hit _ ih =>
    rw [List.countP_append, List.countP_append, hold]
    exact ⟨by omega, fun _ => by omega⟩
  | pass part hpart _ ih =>
    rw [List.countP_append, List.countP_append]
    exact ⟨Nat.add_le_add_left ih.1 _, fun hinfix => Nat.add_lt_add_left (ih.2 (infix_of_pass hpart hinfix)) _⟩

theorem countP_replaceAll {p : α → Bool} (hne : old ≠ []) (hold : old.countP p = 0) (hnew : 0 < new.countP p) (s : List α) :
    s.countP p ≤ (replaceAll old new s).countP p ∧ (old <:+: s → s.countP p < (replaceAll old new s).countP p) :=
  (replaced_replaceAll hne s).countP_le hne hold hnew

/-- Where there is no occurrence, nothing is replaced. -/
theorem replaceAll_of_not_infix {s : List α} (h : ¬old <:+: s) : replaceAll old new s = s := by
  have hpass : replaceAll old new (s ++ []) = s ++ replaceAll old new [] := replaceAll_pass s fun i _ hprefix =>
    h ((List.append_nil _ ▸ hprefix).isInfix.trans (List.drop_suffix i s).isInfix)
  simpa [replaceAll, replaceAfter] using hpass

/-! ### What occurs in the result -/

/-- The new part keeps the text around it apart, as far as `x` is concerned: its ends are not in `x`, and `x` is not in it. -/
structure Guards (new x : List α) : Prop where
  ne_nil : new ≠ []
  head : ∀ c ∈ new.head?, c ∉ x
  last : ∀ c ∈ new.getLast?, c ∉ x
  absent : ¬x <:+: new

omit [DecidableEq α] in
/-- What the result begins with is before the first new part. -/
theorem Replaced.isPrefix {x : List α} (hguards : Guards new x) {s t : List α} (h : Replaced old new s t) :
    ∀ {y : List α}, y ⊆ x → y <+: t → y <+: s := by
  induction h with
  | nil => exact fun _ hy => hy
  | @hit rest rest' _ _ =>
    intro y hyx hy
    cases y with
    | nil => exact List.nil_prefix
    | cons c y =>
      obtain ⟨d, new', rfl⟩ := List.exists_cons_of_ne_nil hguards.ne_nil
      obtain ⟨rfl, _⟩ := List.cons_prefix_cons.1 hy
      exact absurd (hyx (List.mem_cons_self ..)) (hguards.head c rfl)
  | @pass part rest rest' _ _ ih =>
    intro y hyx hy
    rcases List.prefix_or_prefix_of_prefix hy (List.prefix_append part rest') with hpart | ⟨z, rfl⟩
    · exact hpart.trans (List.prefix_append part rest)
    · rw [List.prefix_append_right_inj] at hy ⊢
      exact ih (fun c hc => hyx (List.mem_append_right _ hc)) hy

omit [DecidableEq α] in
/-- **What occurs in the result occurred before**, and is not the part that was replaced. -/
theorem Replaced.occurred {x : List α} (hguards : Guards new x) (hne : x ≠ []) {s t : List α}
    (h : Replaced old new s t) (hx : x <:+: t) : x <:+: s ∧ x ≠ old := by
  induction h with
  | nil => exact absurd (List.infix_nil.1 hx) hne
  | @hit rest rest' _ ih =>
    have hrest : x <:+: rest' := by
      rcases List.infix_append_iff.1 hx with hnew | hrest | ⟨u, v, rfl, hu, hv⟩
      · exact absurd hnew hguards.absent
      · exact hrest
      · rcases u.eq_nil_or_concat with rfl | ⟨u, c, rfl⟩
        · exact hv.isInfix
        · -- The last element of the new part is in `x`.
          obtain ⟨before, rfl⟩ := hu
          exact absurd (by simp) (hguards.last c (by simp))
    exact (ih hrest).imp_left fun hrest => hrest.trans (List.suffix_append old rest).isInfix
  | @pass part rest rest' hpart htail ih =>
    by_cases hbegins : ∃ i < part.length, x <+: part.drop i ++ rest'
    · obtain ⟨i, hi, hbegins⟩ := hbegins
      have hsame : Replaced old new (part.drop i ++ rest) (part.drop i ++ rest') := by
        refine .pass _ (fun j hj => ?_) htail
        rw [List.drop_drop]
        exact hpart _ (by rw [List.length_drop] at hj; omega)
      have hbefore := hsame.isPrefix hguards (List.Subset.refl x) hbegins
      refine ⟨hbefore.isInfix.trans ?_, fun heq => hpart i hi (heq ▸ hbefore)⟩
      rw [← List.drop_append_of_le_length hi.le]
      exact (List.drop_suffix i _).isInfix
    · have hrest := infix_of_pass (fun i hi hprefix => hbegins ⟨i, hi, hprefix⟩) hx
      exact (ih hrest).imp_left fun hrest => hrest.trans (List.suffix_append part rest).isInfix

end

end GoEtl.Library
