import Mathlib.Data.List.Forall2

/-!
# Transactions

A transaction over a state `σ` reads and writes the state and ends either with a
value, when it commits, or with an error, when it is rolled back. `Tx σ ε α` is the
state monad over `Except ε`; an error carries no state, so a transaction that fails
cannot have changed anything: `commit` runs one against the state of the database
and keeps the old state on an error.

## How proofs use it

A transaction is taken apart by *inversion*: from `(x >>= f) s = .ok (b, s')` one
obtains the intermediate value and state (`bind_ok`), and each primitive has such a
lemma (`pure_ok`, `throw_ok`, `read_ok`, `exec_ok`, `failIf_ok`), as has a statement that
begins with one (`read_bind`, `failIf_bind`, `ofExcept_bind`). A loop over a list
is `List.forM`; `forM_keeps` carries an invariant over its rounds and `forM_rel` a
reflexive and transitive relation between the state before and after. A loop that only
computes is `List.mapM` in `Except` (`mapM_ok`).
-/

namespace GoEtl.Library

section Except

variable {ε α β : Type}

theorem except_bind_ok {x : Except ε α} {f : α → Except ε β} {b : β} :
    (x >>= f) = .ok b ↔ ∃ a, x = .ok a ∧ f a = .ok b := by
  cases x with
  | error e => simp [bind, Except.bind]
  | ok a => simp [bind, Except.bind]

theorem except_map_ok {ε α β : Type*} {x : Except ε α} {f : α → β} {b : β} : x.map f = .ok b ↔ ∃ a, x = .ok a ∧ f a = b := by
  cases x with
  | error e => simp [Except.map]
  | ok a => simp [Except.map]

/-- A loop of checks succeeds if all of them do. -/
theorem except_forM_ok {f : α → Except ε Unit} {xs : List α} : xs.forM f = .ok () ↔ ∀ x ∈ xs, f x = .ok () := by
  induction xs with
  | nil => exact iff_of_true rfl (by simp)
  | cons x xs ih =>
    rw [List.forall_mem_cons, ← ih]
    refine Iff.trans (except_bind_ok (f := fun _ => xs.forM f)) ?_
    exact ⟨fun ⟨_, hx, hxs⟩ => ⟨hx, hxs⟩, fun ⟨hx, hxs⟩ => ⟨(), hx, hxs⟩⟩

theorem mapError_ok {ν : Type*} {x : Except ε α} {f : ε → ν} {a : α} : x.mapError f = .ok a ↔ x = .ok a := by
  cases x <;> simp [Except.mapError]

variable {f : α → Except ε β} {xs : List α} {ys : List β}

/-- A computing loop succeeds with the values of its rounds. -/
theorem mapM_ok : xs.mapM f = .ok ys ↔ List.Forall₂ (fun x y => f x = .ok y) xs ys := by
  induction xs generalizing ys with
  | nil =>
    rw [List.mapM_nil, List.forall₂_nil_left_iff]
    constructor
    · rintro ⟨⟩
      rfl
    · rintro rfl
      rfl
  | cons x xs ih =>
    rw [List.mapM_cons, except_bind_ok, List.forall₂_cons_left_iff]
    constructor
    · rintro ⟨y, hy, h⟩
      obtain ⟨zs, hzs, h⟩ := except_bind_ok.1 h
      cases h
      exact ⟨y, zs, hy, ih.1 hzs, rfl⟩
    · rintro ⟨y, zs, hy, hzs, rfl⟩
      exact ⟨y, hy, except_bind_ok.2 ⟨zs, ih.2 hzs, rfl⟩⟩

/-- If every element is related to one, the elements are related to a list of them. -/
theorem forall₂_of_forall {α β : Type*} {R : α → β → Prop} {xs : List α} (h : ∀ x ∈ xs, ∃ y, R x y) :
    ∃ ys, List.Forall₂ R xs ys := by
  induction xs with
  | nil => exact ⟨[], .nil⟩
  | cons x xs ih =>
    rw [List.forall_mem_cons] at h
    obtain ⟨y, hy⟩ := h.1
    obtain ⟨ys, hys⟩ := ih h.2
    exact ⟨y :: ys, .cons hy hys⟩

theorem exists_mapM (h : ∀ x ∈ xs, ∃ y, f x = .ok y) : ∃ ys, xs.mapM f = .ok ys := by
  obtain ⟨ys, hys⟩ := forall₂_of_forall h
  exact ⟨ys, mapM_ok.2 hys⟩

/-- An element of a list has one that it is related to in the other. -/
theorem exists_of_forall₂ {α β : Type*} {R : α → β → Prop} {xs : List α} {ys : List β} (h : List.Forall₂ R xs ys) {x : α}
    (hx : x ∈ xs) : ∃ y ∈ ys, R x y := by
  induction h with
  | nil => cases hx
  | cons hxy _ ih =>
    rcases List.mem_cons.1 hx with rfl | hx
    · exact ⟨_, List.mem_cons_self .., hxy⟩
    · obtain ⟨y, hy, hrel⟩ := ih hx
      exact ⟨y, List.mem_cons_of_mem _ hy, hrel⟩

/-- A value of a computing loop is the value of one of its rounds. -/
theorem mapM_mem (h : xs.mapM f = .ok ys) {y : β} (hy : y ∈ ys) : ∃ x ∈ xs, f x = .ok y := by
  exact exists_of_forall₂ (List.Forall₂.flip (mapM_ok.1 h)) hy

/-- The values of a computing loop are the values of its rounds. -/
theorem mapM_forall (h : xs.mapM f = .ok ys) {P : β → Prop} : (∀ y ∈ ys, P y) ↔ ∀ x ∈ xs, ∃ y, f x = .ok y ∧ P y := by
  rw [mapM_ok] at h
  induction h with
  | nil => simp
  | cons hxy _ ih =>
    rw [List.forall_mem_cons, List.forall_mem_cons, ih]
    refine and_congr_left fun _ => ?_
    constructor
    · intro hy
      exact ⟨_, hxy, hy⟩
    · rintro ⟨y, hy, hP⟩
      rw [hxy] at hy
      cases hy
      exact hP

end Except

/-- A transaction over the state `σ`: a value and the state to commit, or an error. -/
abbrev Tx (σ ε α : Type) := StateT σ (Except ε) α

namespace Tx

variable {σ ε α β ν : Type} {s s' : σ} {a b : α}

/-- Run a transaction against the database: an error rolls it back. -/
def commit (m : Tx σ ε α) (s : σ) : σ :=
  match m s with
  | .ok (_, s') => s'
  | .error _ => s

/-- A committed state is the old one, or the one a successful transaction ended in. -/
theorem commit_cases (m : Tx σ ε α) (s : σ) :
    (∃ e, m s = .error e ∧ m.commit s = s) ∨ ∃ a s', m s = .ok (a, s') ∧ m.commit s = s' := by
  unfold commit
  cases h : m s with
  | error e => exact .inl ⟨e, rfl, rfl⟩
  | ok r => exact .inr ⟨r.1, r.2, rfl, rfl⟩

/-- What is made of the result does not matter for the state. -/
theorem commit_bind_pure (m : Tx σ ε α) (g : α → β) (s : σ) : (do let a ← m; pure (g a)).commit s = m.commit s := by
  unfold commit
  change (match (m s >>= fun r => .ok (g r.1, r.2)) with | .ok (_, s') => s' | .error _ => s) = _
  cases m s with
  | error e => rfl
  | ok r => rfl

/-- Read something from the state. -/
def read (g : σ → α) : Tx σ ε α := fun s => .ok (g s, s)

/-- Fail with `e` when the condition holds. -/
def failIf (c : Bool) (e : ε) : Tx σ ε Unit := fun s => if c then .error e else .ok ((), s)

/-- Execute a statement that changes the state or fails, naming the failure. -/
def exec (op : σ → Except ν σ) (err : ν → ε) : Tx σ ε Unit := fun s =>
  match op s with
  | .ok s' => .ok ((), s')
  | .error v => .error (err v)

/-- Lift a computation that does not look at the state. -/
def ofExcept (x : Except ε α) : Tx σ ε α := fun s =>
  match x with
  | .ok a => .ok (a, s)
  | .error e => .error e

/-! ### Inversion -/

theorem bind_ok {x : Tx σ ε α} {f : α → Tx σ ε β} {c : β} :
    (x >>= f) s = .ok (c, s') ↔ ∃ a s₁, x s = .ok (a, s₁) ∧ f a s₁ = .ok (c, s') := by
  change (x s >>= fun p => f p.1 p.2) = _ ↔ _
  cases h : x s with
  | error e => simp [bind, Except.bind]
  | ok p =>
    obtain ⟨a, s₁⟩ := p
    simp [bind, Except.bind, and_assoc]

@[simp] theorem pure_ok : (pure a : Tx σ ε α) s = .ok (b, s') ↔ a = b ∧ s = s' := by
  change Except.ok (a, s) = _ ↔ _
  simp

@[simp] theorem throw_ok {e : ε} {r : α × σ} : (throw e : Tx σ ε α) s ≠ .ok r := by
  change Except.error e ≠ _
  simp

@[simp] theorem read_ok {g : σ → α} : (read g : Tx σ ε α) s = .ok (a, s') ↔ g s = a ∧ s = s' := by
  simp [read]

@[simp] theorem failIf_ok {c : Bool} {e : ε} {u : Unit} :
    failIf c e s = .ok (u, s') ↔ c = false ∧ s = s' := by
  cases c <;> simp [failIf]

@[simp] theorem exec_ok {op : σ → Except ν σ} {err : ν → ε} {u : Unit} :
    exec op err s = .ok (u, s') ↔ op s = .ok s' := by
  unfold exec
  cases op s <;> simp

@[simp] theorem ofExcept_ok {x : Except ε α} :
    (ofExcept x : Tx σ ε α) s = .ok (a, s') ↔ x = .ok a ∧ s = s' := by
  cases x <;> simp [ofExcept]

section Bind

variable {f : α → Tx σ ε β} {c : β}

theorem read_bind {g : σ → α} : (read g >>= f) s = .ok (c, s') ↔ ∃ a, g s = a ∧ f a s = .ok (c, s') := by
  simp [bind_ok]

theorem failIf_bind {p : Bool} {e : ε} {f : Unit → Tx σ ε β} :
    (failIf p e >>= f) s = .ok (c, s') ↔ p = false ∧ f () s = .ok (c, s') := by
  simp [bind_ok, and_assoc, Unique.exists_iff]

theorem ofExcept_bind {x : Except ε α} :
    (ofExcept x >>= f) s = .ok (c, s') ↔ ∃ a, x = .ok a ∧ f a s = .ok (c, s') := by
  simp [bind_ok, and_assoc]

theorem bind_pure_ok {x : Tx σ ε α} {g : α → β} :
    (x >>= fun a => pure (g a)) s = .ok (c, s') ↔ ∃ a, x s = .ok (a, s') ∧ g a = c := by
  rw [bind_ok]
  simp [and_comm]

end Bind

/-! ### Loops -/

section Loops

variable {ι : Type} {xs : List ι} {f : ι → Tx σ ε Unit} {u : Unit}

theorem forM_nil_ok : (([] : List ι).forM f) s = .ok (u, s') ↔ s = s' := by
  simp [List.forM_nil]

theorem forM_cons_ok {x : ι} :
    ((x :: xs).forM f) s = .ok (u, s') ↔
      ∃ s₁, f x s = .ok ((), s₁) ∧ (xs.forM f) s₁ = .ok ((), s') := by
  change (f x >>= fun _ => xs.forM f) s = _ ↔ _
  rw [bind_ok]
  exact ⟨fun ⟨_, h⟩ => h, fun h => ⟨(), h⟩⟩

/-- **Loop invariants**: what every round keeps, the loop keeps. -/
theorem forM_keeps {P : σ → Prop} (hround : ∀ x ∈ xs, ∀ s s', P s → f x s = .ok ((), s') → P s')
    (h : (xs.forM f) s = .ok (u, s')) (hs : P s) : P s' := by
  induction xs generalizing s with
  | nil =>
    obtain rfl := forM_nil_ok.1 h
    exact hs
  | cons x xs ih =>
    obtain ⟨s₁, h₁, h₂⟩ := forM_cons_ok.1 h
    refine ih (fun y hy => hround y (List.mem_cons_of_mem x hy)) h₂ ?_
    exact hround x List.mem_cons_self s s₁ hs h₁

/-- What every round establishes for its element and keeps for the others, holds for all of them after the loop. -/
theorem forM_establishes {P : ι → σ → Prop} (hround : ∀ x ∈ xs, ∀ s s', f x s = .ok ((), s') → P x s')
    (hkeep : ∀ x ∈ xs, ∀ y ∈ xs, ∀ s s', P x s → f y s = .ok ((), s') → P x s')
    (h : (xs.forM f) s = .ok (u, s')) : ∀ x ∈ xs, P x s' := by
  induction xs generalizing s with
  | nil => simp
  | cons x xs ih =>
    obtain ⟨s₁, h₁, h₂⟩ := forM_cons_ok.1 h
    refine List.forall_mem_cons.2 ⟨?_, ih (fun y hy => hround y (List.mem_cons_of_mem x hy)) ?_ h₂⟩
    · exact forM_keeps (fun y hy => hkeep x List.mem_cons_self y (List.mem_cons_of_mem x hy)) h₂
        (hround x List.mem_cons_self s s₁ h₁)
    · exact fun y hy z hz => hkeep y (List.mem_cons_of_mem x hy) z (List.mem_cons_of_mem x hz)

/-- A reflexive and transitive relation that every round satisfies, the loop satisfies. -/
theorem forM_rel {R : σ → σ → Prop} (hrefl : ∀ s, R s s) (htrans : ∀ s t u, R s t → R t u → R s u)
    (hround : ∀ x ∈ xs, ∀ s s', f x s = .ok ((), s') → R s s')
    (h : (xs.forM f) s = .ok (u, s')) : R s s' :=
  forM_keeps (P := R s) (fun x hx t t' ht hf => htrans s t t' ht (hround x hx t t' hf)) h (hrefl s)

end Loops

end Tx

end GoEtl.Library
