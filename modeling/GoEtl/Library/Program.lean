import Mathlib.Tactic.Basic

/-!
# Programs that share a state

A program that works on a state it shares with others: it reaches the state in atomic steps and
computes on its own in between. `Prog σ ι ε α` is the tree of what such a program may do. A step
changes the state and goes on with a program that depends on the state the step found, and both may
depend on an input `ι` that the step takes from outside (the time, the connection it was given). A
program ends with a value or with an error.

## Reasoning about a program among others

Between two steps of a program, others may change the state. `Safe R G Q E p s` says what a program
does under such interference. If `p` goes on from `s`, and everything the others do between two of
its steps is in the relation `R`, then every step of `p` is in the relation `G`, and `p` ends, with a
value and a state in `Q` or with an error and a state in `E`. A program is a well-founded tree, so
that it ends is part of the definition.

The rules follow the constructors: `Safe.bind` for a sequence, `Safe.attempt` for a handled error,
`Safe.forM` for a loop and `Safe.mono` for consequence. `Safe.alone` is what remains of them for a program
that nothing goes on beside, and `Steps` what remains for one that anything may go on beside.
-/

namespace GoEtl.Library

/-- A program over the shared state `σ` whose steps take an input `ι`. -/
inductive Prog (σ ι ε α : Type) : Type where
  /-- The program has ended with a value. -/
  | ret (a : α)
  /-- The program has ended with an error. -/
  | fail (e : ε)
  /-- A step: the state after it, and the program after it, both from the state before it. -/
  | step (act : ι → σ → σ) (next : ι → σ → Prog σ ι ε α)

namespace Prog

variable {σ ι ε ε' α β γ : Type}

/-- One program after the other. -/
def bind (p : Prog σ ι ε α) (f : α → Prog σ ι ε β) : Prog σ ι ε β :=
  match p with
  | ret a => f a
  | fail e => fail e
  | step act next => step act fun i s => (next i s).bind f

instance : Monad (Prog σ ι ε) where
  pure := ret
  bind := bind

/-- Run a program and hand its error on as a value. -/
def attempt : Prog σ ι ε α → Prog σ ι ε' (Except ε α)
  | ret a => ret (.ok a)
  | fail e => ret (.error e)
  | step act next => step act fun i s => (next i s).attempt

/-- Rename the errors of a program. -/
def mapError (f : ε → ε') : Prog σ ι ε α → Prog σ ι ε' α
  | ret a => ret a
  | fail e => fail (f e)
  | step act next => step act fun i s => (next i s).mapError f

/-- A computation that does not reach the state. -/
def ofExcept : Except ε α → Prog σ ι ε α
  | .ok a => ret a
  | .error e => fail e

/-- Read from the state. -/
def read (g : ι → σ → α) : Prog σ ι ε α := step (fun _ s => s) fun i s => ret (g i s)

/-- The program has ended. -/
def ended : Prog σ ι ε α → Bool
  | step _ _ => false
  | _ => true

/-- What a program that has ended returned. -/
def result : Prog σ ι ε α → Option (Except ε α)
  | ret a => some (.ok a)
  | fail e => some (.error e)
  | step _ _ => none

/-- What a program returns and leaves when nothing goes on beside it, with one input for all its steps. -/
def alone (i : ι) : Prog σ ι ε α → σ → Except ε α × σ
  | ret a, s => (.ok a, s)
  | fail e, s => (.error e, s)
  | step act next, s => (next i s).alone i (act i s)

theorem alone_bind (i : ι) (p : Prog σ ι ε α) (f : α → Prog σ ι ε β) (s : σ) :
    (p >>= f).alone i s =
      match p.alone i s with
      | (.ok a, t) => (f a).alone i t
      | (.error e, t) => (.error e, t) := by
  induction p generalizing s with
  | ret a => rfl
  | fail e => rfl
  | step act next ih => exact ih i s (act i s)

theorem alone_bind_ok {i : ι} {p : Prog σ ι ε α} {f : α → Prog σ ι ε β} {s t : σ} {a : α}
    (h : p.alone i s = (.ok a, t)) : (p >>= f).alone i s = (f a).alone i t := by
  rw [alone_bind, h]

/-! ### The programs of a run -/

/-- The program goes on from the state under interference in `R`: its steps are in `G`, and it ends in
`Q` or in `E`. -/
def Safe (R G : σ → σ → Prop) (Q : α → σ → Prop) (E : ε → σ → Prop) : Prog σ ι ε α → σ → Prop
  | ret a, s => Q a s
  | fail e, s => E e s
  | step act next, s => ∀ i t, R s t → G t (act i t) ∧ Safe R G Q E (next i t) (act i t)

namespace Safe

variable {R G : σ → σ → Prop} {Q Q' : α → σ → Prop} {E E' : ε → σ → Prop} {p : Prog σ ι ε α} {s : σ}

/-- Consequence. -/
theorem mono (hQ : ∀ a t, Q a t → Q' a t) (hE : ∀ e t, E e t → E' e t) (h : Safe R G Q E p s) :
    Safe R G Q' E' p s := by
  induction p generalizing s with
  | ret a => exact hQ a s h
  | fail e => exact hE e s h
  | step act next ih =>
    intro i t hst
    exact ⟨(h i t hst).1, ih i t (h i t hst).2⟩

/-- A program keeps a weaker guarantee. -/
theorem weaken {G' : σ → σ → Prop} (hG : ∀ t u, G t u → G' t u) (h : Safe R G Q E p s) : Safe R G' Q E p s := by
  induction p generalizing s with
  | ret a => exact h
  | fail e => exact h
  | step act next ih =>
    intro i t hst
    exact ⟨hG _ _ (h i t hst).1, ih i t (h i t hst).2⟩

/-- **The way of a program**: where it ends is related to where it began, by every preorder that holds of
the steps of the others and of its own. -/
theorem reaches {T : σ → σ → Prop} (hrefl : ∀ s, T s s) (htrans : ∀ s t u, T s t → T t u → T s u)
    (hR : ∀ t u, R t u → T t u) (hG : ∀ t u, G t u → T t u) (h : Safe R G Q E p s) :
    Safe R G (fun a t => Q a t ∧ T s t) (fun e t => E e t ∧ T s t) p s := by
  suffices ∀ s₀, T s₀ s → Safe R G (fun a t => Q a t ∧ T s₀ t) (fun e t => E e t ∧ T s₀ t) p s from
    this s (hrefl s)
  induction p generalizing s with
  | ret a => exact fun s₀ hs => ⟨h, hs⟩
  | fail e => exact fun s₀ hs => ⟨h, hs⟩
  | step act next ih =>
    intro s₀ hs i t hst
    obtain ⟨hstep, hnext⟩ := h i t hst
    refine ⟨hstep, ih i t hnext s₀ ?_⟩
    exact htrans _ _ _ (htrans _ _ _ hs (hR _ _ hst)) (hG _ _ hstep)

/-- **Sequences**: the second program starts where the first one ended. -/
theorem bind {f : α → Prog σ ι ε β} {Q : β → σ → Prop}
    (h : Safe R G (fun a t => Safe R G Q E (f a) t) E p s) : Safe R G Q E (p >>= f) s := by
  induction p generalizing s with
  | ret a => exact h
  | fail e => exact h
  | step act next ih =>
    intro i t hst
    exact ⟨(h i t hst).1, ih i t (h i t hst).2⟩

/-- Handled errors. -/
theorem attempt {Q : Except ε α → σ → Prop} {E : ε' → σ → Prop}
    (h : Safe R G (fun a t => Q (.ok a) t) (fun e t => Q (.error e) t) p s) :
    Safe R G Q E (p.attempt : Prog σ ι ε' (Except ε α)) s := by
  induction p generalizing s with
  | ret a => exact h
  | fail e => exact h
  | step act next ih =>
    intro i t hst
    exact ⟨(h i t hst).1, ih i t (h i t hst).2⟩

/-- Renamed errors. -/
theorem mapError {f : ε → ε'} {E : ε' → σ → Prop} (h : Safe R G Q (fun e t => E (f e) t) p s) :
    Safe R G Q E (p.mapError f) s := by
  induction p generalizing s with
  | ret a => exact h
  | fail e => exact h
  | step act next ih =>
    intro i t hst
    exact ⟨(h i t hst).1, ih i t (h i t hst).2⟩

/-- A computation without steps. -/
theorem ofExcept {x : Except ε α} (hok : ∀ a, x = .ok a → Q a s) (herror : ∀ e, x = .error e → E e s) :
    Safe R G Q E (Prog.ofExcept x : Prog σ ι ε α) s := by
  cases x with
  | ok a => exact hok a rfl
  | error e => exact herror e rfl

/-- A read leaves the state as the others left it. -/
theorem read {g : ι → σ → α} (hG : ∀ t, G t t) (h : ∀ i t, R s t → Q (g i t) t) :
    Safe R G Q E (Prog.read g) s :=
  fun i t hst => ⟨hG t, h i t hst⟩

/-- **Loops**: what every round keeps, the loop keeps. -/
theorem forM {κ : Type} {xs : List κ} {f : κ → Prog σ ι ε Unit} {P : σ → Prop}
    (hround : ∀ x ∈ xs, ∀ t, P t → Safe R G (fun _ u => P u) E (f x) t) (hs : P s) :
    Safe R G (fun _ t => P t) E (xs.forM f) s := by
  induction xs generalizing s with
  | nil => exact hs
  | cons x xs ih =>
    rw [List.forall_mem_cons] at hround
    exact bind ((hround.1 s hs).mono (fun _ t ht => ih hround.2 ht) fun _ _ => id)

/-- **A program that is alone** ends as it is safe to end, on a way of its own steps. -/
theorem alone {T : σ → σ → Prop} (hR : ∀ s, R s s) (hrefl : ∀ s, T s s) (htrans : ∀ s t u, T s t → T t u → T s u)
    (hG : ∀ t u, G t u → T t u) (h : Safe R G Q E p s) {i : ι} {a : α} (ha : (p.alone i s).1 = .ok a) :
    Q a (p.alone i s).2 ∧ T s (p.alone i s).2 := by
  induction p generalizing s with
  | ret b =>
    cases ha
    exact ⟨h, hrefl s⟩
  | fail e => cases ha
  | step act next ih =>
    obtain ⟨hstep, hnext⟩ := h i s (hR s)
    obtain ⟨hQ, hT⟩ := ih i s hnext ha
    exact ⟨hQ, htrans _ _ _ (hG _ _ hstep) hT⟩

end Safe

/-! ### Programs whatever goes on beside them -/

/-- Every step of the program is in the relation, whatever the others do. -/
def Steps (G : σ → σ → Prop) (p : Prog σ ι ε α) : Prop :=
  ∀ s, p.Safe (fun _ _ => True) G (fun _ _ => True) (fun _ _ => True) s

namespace Steps

variable {G : σ → σ → Prop} {p : Prog σ ι ε α}

/-- It is enough to look at one state. -/
theorem of_safe {s : σ} (h : p.Safe (fun _ _ => True) G (fun _ _ => True) (fun _ _ => True) s) : Steps G p := by
  intro t
  cases p with
  | ret a => trivial
  | fail e => trivial
  | step act next => exact fun i u _ => h i u trivial

/-- A program that takes no step that changes the state leaves it. -/
theorem alone_eq (h : Steps Eq p) (i : ι) (s : σ) : (p.alone i s).2 = s := by
  induction p generalizing s with
  | ret a => rfl
  | fail e => rfl
  | step act next ih =>
    obtain ⟨hact, hnext⟩ := h s i s trivial
    exact (ih i s (.of_safe hnext) (act i s)).trans hact.symm

theorem ret (a : α) : Steps G (.ret a : Prog σ ι ε α) := fun _ => trivial

theorem pure (a : α) : Steps G (Pure.pure a : Prog σ ι ε α) := ret a

theorem fail (e : ε) : Steps G (.fail e : Prog σ ι ε α) := fun _ => trivial

theorem step {act : ι → σ → σ} {next : ι → σ → Prog σ ι ε α} (hact : ∀ i s, G s (act i s))
    (hnext : ∀ i s, Steps G (next i s)) : Steps G (.step act next) :=
  fun _ i t _ => ⟨hact i t, hnext i t _⟩

theorem bind {f : α → Prog σ ι ε β} (hp : Steps G p) (hf : ∀ a, Steps G (f a)) : Steps G (p >>= f) :=
  fun s => Safe.bind ((hp s).mono (fun a t _ => hf a t) fun _ _ => id)

theorem attempt (hp : Steps G p) : Steps G (p.attempt : Prog σ ι ε' (Except ε α)) :=
  fun s => Safe.attempt ((hp s).mono (fun _ _ => id) fun _ _ => id)

theorem mapError {f : ε → ε'} (hp : Steps G p) : Steps G (p.mapError f) :=
  fun s => Safe.mapError ((hp s).mono (fun _ _ => id) fun _ _ => id)

theorem ofExcept (x : Except ε α) : Steps G (.ofExcept x : Prog σ ι ε α) :=
  fun _ => Safe.ofExcept (fun _ _ => trivial) fun _ _ => trivial

theorem read (hG : ∀ s, G s s) (g : ι → σ → α) : Steps G (.read g : Prog σ ι ε α) :=
  fun _ => Safe.read hG fun _ _ _ => trivial

theorem forM {κ : Type} {xs : List κ} {f : κ → Prog σ ι ε Unit} (h : ∀ x ∈ xs, Steps G (f x)) :
    Steps G (xs.forM f) :=
  fun _ => (Safe.forM (P := fun _ => True) (fun x hx t _ => h x hx t) trivial).mono (fun _ _ => id) fun _ _ => id

end Steps

end Prog

end GoEtl.Library
