import Mathlib.Data.List.Forall2

/-!
# Two runs of a program that may fail

A property of two runs of a program, such as that what is hidden does not show in the results, is a relation between the
results where both runs succeed. `Agree r x y` is that relation for two results that may be errors, and the rule for
binds (`Agree.bind`) carries it through a program. `Extends x y` says that the second run succeeds with the same result
where the first does, as when it has more of a resource; `Follows r x y` is the same up to a relation. What the two have
in common is enough to go through a program (`Lifting`). What is searched in lists that are related element by element is
found in both of them or in neither (`findSome?_rel`).
-/

namespace GoEtl.Library

universe u v

variable {ε ε' ν ν' : Type*} {α α' : Type u} {β β' : Type v}

/-- Where both runs succeed, the results are related. -/
def Agree (r : α → β → Prop) (x : Except ε α) (y : Except ε' β) : Prop :=
  ∀ a b, x = .ok a → y = .ok b → r a b

namespace Agree

variable {r : α → β → Prop} {s : α' → β' → Prop} {x : Except ε α} {y : Except ε' β}

theorem ok {a : α} {b : β} (h : r a b) : Agree r (.ok a : Except ε α) (.ok b : Except ε' β) := by
  rintro _ _ ⟨⟩ ⟨⟩
  exact h

theorem error_left {e : ε} : Agree r (.error e : Except ε α) y := by
  rintro _ _ ⟨⟩

theorem error_right {e : ε'} : Agree r x (.error e : Except ε' β) := by
  rintro _ _ _ ⟨⟩

/-- Equal results are related by equality. -/
theorem refl (z : Except ε α) : Agree (· = ·) z z := fun _ _ h h' => Except.ok.inj (h.symm.trans h')

theorem mono {r' : α → β → Prop} (h : Agree r x y) (himp : ∀ a b, r a b → r' a b) : Agree r' x y :=
  fun a b hx hy => himp a b (h a b hx hy)

/-- **One step after the other.** -/
theorem bind (h : Agree r x y) {f : α → Except ε α'} {g : β → Except ε' β'} (hnext : ∀ a b, r a b → Agree s (f a) (g b)) :
    Agree s (x >>= f) (y >>= g) := by
  intro a' b' hx hy
  cases hx' : x with
  | error e =>
    rw [hx'] at hx
    cases hx
  | ok a =>
    cases hy' : y with
    | error e =>
      rw [hy'] at hy
      cases hy
    | ok b =>
      rw [hx'] at hx
      rw [hy'] at hy
      exact hnext a b (h a b hx' hy') a' b' hx hy

theorem mapError_left {f : ε → ν} (h : Agree r x y) : Agree r (x.mapError f) y := by
  cases x with
  | error e => exact error_left
  | ok a =>
    rintro _ b ⟨⟩ hy
    exact h a b rfl hy

theorem mapError_right {g : ε' → ν'} (h : Agree r x y) : Agree r x (y.mapError g) := by
  cases y with
  | error e => exact error_right
  | ok b =>
    rintro a _ hx ⟨⟩
    exact h a b hx rfl

theorem mapError {f : ε → ν} {g : ε' → ν'} (h : Agree r x y) : Agree r (x.mapError f) (y.mapError g) :=
  h.mapError_left.mapError_right

end Agree

/-- Where the first run succeeds, so does the second, with the same result. -/
def Extends (x y : Except ε α) : Prop := ∀ a, x = .ok a → y = .ok a

namespace Extends

variable {x y : Except ε α}

theorem refl (z : Except ε α) : Extends z z := fun _ h => h

theorem error {e : ε} : Extends (.error e) y := by
  rintro _ ⟨⟩

theorem bind (h : Extends x y) {f g : α → Except ε α'} (hnext : ∀ a, Extends (f a) (g a)) :
    Extends (x >>= f) (y >>= g) := by
  intro b hb
  cases hx : x with
  | error e =>
    rw [hx] at hb
    cases hb
  | ok a =>
    rw [hx] at hb
    rw [h a hx]
    exact hnext a b hb

end Extends

/-- Where the first run succeeds, so does the second, with a related result. -/
def Follows (r : α → β → Prop) (x : Except ε α) (y : Except ε' β) : Prop := ∀ a, x = .ok a → ∃ b, y = .ok b ∧ r a b

theorem follows_eq {x y : Except ε α} : Follows (· = ·) x y ↔ Extends x y := by
  constructor
  · intro h a hx
    obtain ⟨_, hy, rfl⟩ := h a hx
    exact hy
  · exact fun h a hx => ⟨a, h a hx, rfl⟩

/-- Relations between the results of two runs. -/
abbrev ResultRel := ∀ ⦃ε α β : Type⦄, (α → β → Prop) → Except ε α → Except ε β → Prop

/-- What it takes for a relation to go through a program. An error of the first run is related to everything. -/
structure Lifting (Q : ResultRel) : Prop where
  ok : ∀ {ε α β : Type} {r : α → β → Prop} {a : α} {b : β}, r a b → Q r (.ok a : Except ε α) (.ok b)
  error : ∀ {ε α β : Type} {r : α → β → Prop} {e : ε} {y : Except ε β}, Q r (.error e) y
  bind : ∀ {ε α β α' β' : Type} {r : α → β → Prop} {s : α' → β' → Prop} {x : Except ε α} {y : Except ε β}
    {f : α → Except ε α'} {g : β → Except ε β'}, Q r x y → (∀ a b, r a b → Q s (f a) (g b)) → Q s (x >>= f) (y >>= g)
  mapError : ∀ {ε ν α β : Type} {r : α → β → Prop} {x : Except ε α} {y : Except ε β} {f g : ε → ν},
    Q r x y → Q r (x.mapError f) (y.mapError g)

namespace Lifting

variable {Q : ResultRel} (hQ : Lifting Q) {ε α β α' β' : Type}

include hQ

theorem same (z : Except ε α) : Q (· = ·) z z := by
  cases z with
  | error e => exact hQ.error
  | ok a => exact hQ.ok rfl

theorem bind_same (z : Except ε α) {s : α' → β' → Prop} {f : α → Except ε α'} {g : α → Except ε β'}
    (hnext : ∀ a, Q s (f a) (g a)) : Q s (z >>= f) (z >>= g) :=
  hQ.bind (hQ.same z) fun a _ hab => hab ▸ hnext a

end Lifting

theorem Agree.lifting : Lifting fun _ _ _ r x y => Agree r x y where
  ok := .ok
  error := .error_left
  bind h hnext := h.bind hnext
  mapError := .mapError

theorem Follows.lifting : Lifting fun _ _ _ r x y => Follows r x y where
  ok := by
    rintro _ _ _ _ a b hab _ ⟨⟩
    exact ⟨b, rfl, hab⟩
  error := by
    rintro _ _ _ _ _ _ _ ⟨⟩
  bind := by
    intro _ _ _ _ _ _ _ x y f g h hnext b hb
    cases hx : x with
    | error e =>
      rw [hx] at hb
      cases hb
    | ok a =>
      rw [hx] at hb
      obtain ⟨a', hy, ha⟩ := h a hx
      rw [hy]
      exact hnext a a' ha b hb
  mapError := by
    intro _ _ _ _ _ x y f g h a hx
    cases x with
    | error e => cases hx
    | ok b =>
      cases hx
      obtain ⟨b', rfl, hb⟩ := h a rfl
      exact ⟨b', rfl, hb⟩

/-- Searches of lists that are related element by element find related results, or none. -/
theorem findSome?_rel {r : α → β → Prop} {s : α' → β' → Prop} {xs : List α} {ys : List β} (h : List.Forall₂ r xs ys)
    {f : α → Option α'} {g : β → Option β'} (hfound : ∀ x y, r x y → Option.Rel s (f x) (g y)) :
    Option.Rel s (xs.findSome? f) (ys.findSome? g) := by
  induction h with
  | nil => exact .none
  | @cons x y _ _ hxy _ ih =>
    have hrel := hfound x y hxy
    rw [List.findSome?_cons, List.findSome?_cons]
    generalize f x = a at hrel ⊢
    generalize g y = b at hrel ⊢
    cases hrel with
    | some hab => exact .some hab
    | none => exact ih

end GoEtl.Library
