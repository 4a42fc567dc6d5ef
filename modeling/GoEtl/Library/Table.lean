import Mathlib.Data.List.Basic
import Mathlib.Data.List.Pairwise

/-!
# Relational tables with keys and checks

A table of a relational database, as a list of rows that carries its own
constraints. A `Schema` over a row type says when two rows clash (they agree on
the primary key or on a unique index, partial indexes included) and which rows
pass the table's `CHECK`s; it is built from a primary key (`Schema.keyed`) by adding
unique indexes (`Schema.unique`). A `Table` is a list of rows, in the order of their
insertion, together with the proofs that no two rows clash and that every row
passes: a table that breaks a constraint cannot be built.

## The operations

`insert` is SQL's `INSERT` (it fails on a row that breaks a constraint),
`insertOrIgnore` its `ON CONFLICT DO NOTHING`, `delete` removes the rows that
satisfy a predicate, `update` rewrites them and `lookup` reads one row back. Foreign
keys span two tables and are the caller's.

Each operation comes with the lemma that says which rows its result has, and
callers use only these: `mem_insert`, `mem_insertOrIgnore_of_mem`, `mem_delete`,
`mem_update`. Uniqueness is used through `eq_of_clash`.
-/

namespace GoEtl.Library

/-- A statement's reason for failing. -/
inductive Violation where
  /-- A `CHECK` is false on the new row. -/
  | check
  /-- The new row agrees with an existing one on a unique key. -/
  | unique
  /-- The row the new row refers to does not exist. -/
  | foreignKey
  /-- An integer computation left the 64-bit range. -/
  | overflow
  /-- A read that must find a row found none. -/
  | noRows
  deriving DecidableEq, Repr

/-- The constraints of one table. -/
structure Schema (ρ : Type*) where
  /-- The two rows agree on the primary key or on a unique index. -/
  clash : ρ → ρ → Bool
  /-- The row passes the `CHECK`s. -/
  check : ρ → Bool
  /-- Clashing does not depend on which row came first. -/
  clash_symm : ∀ a b, clash a b = clash b a

namespace Schema

variable {ρ κ : Type*} [DecidableEq κ]

/-- A table with a primary key and a check. -/
def keyed (key : ρ → κ) (check : ρ → Bool) : Schema ρ where
  clash a b := decide (key a = key b)
  check := check
  clash_symm a b := by simp only [eq_comm]

/-- Add a unique index. Rows where the indexed value is null are outside it, as SQL has it
(and a partial index on the rows that have a value is the same thing). -/
def unique (S : Schema ρ) (index : ρ → Option κ) : Schema ρ where
  clash a b := S.clash a b || ((index a).isSome && decide (index a = index b))
  check := S.check
  clash_symm a b := by
    rw [S.clash_symm a b]
    by_cases h : index a = index b
    · simp [h]
    · simp [h, Ne.symm h]

@[simp] theorem keyed_clash {key : ρ → κ} {check : ρ → Bool} {a b : ρ} :
    (keyed key check).clash a b = true ↔ key a = key b := decide_eq_true_iff

@[simp] theorem keyed_check {key : ρ → κ} {check : ρ → Bool} : (keyed key check).check = check := rfl

@[simp] theorem unique_clash {S : Schema ρ} {index : ρ → Option κ} {a b : ρ} :
    (S.unique index).clash a b = true ↔
      S.clash a b = true ∨ ∃ v, index a = some v ∧ index b = some v := by
  simp only [unique, Bool.or_eq_true, Bool.and_eq_true, decide_eq_true_eq, Option.isSome_iff_exists]
  refine or_congr_right ⟨?_, ?_⟩
  · rintro ⟨⟨v, hv⟩, h⟩
    exact ⟨v, hv, h ▸ hv⟩
  · rintro ⟨v, ha, hb⟩
    exact ⟨⟨v, ha⟩, ha.trans hb.symm⟩

@[simp] theorem unique_check {S : Schema ρ} {index : ρ → Option κ} :
    (S.unique index).check = S.check := rfl

end Schema

/-- A table: rows in insertion order, no two of which clash, all of which pass the checks. -/
structure Table {ρ : Type*} (S : Schema ρ) where
  /-- The rows. -/
  rows : List ρ
  /-- No two rows clash. -/
  distinct : rows.Pairwise fun a b => S.clash a b = false
  /-- Every row passes the checks. -/
  checked : ∀ r ∈ rows, S.check r = true

namespace Table

variable {ρ : Type*} {S : Schema ρ} {t t' : Table S} {r x : ρ} {p : ρ → Bool} {f : ρ → ρ}

instance : Membership ρ (Table S) := ⟨fun t r => r ∈ t.rows⟩

instance [DecidableEq ρ] (r : ρ) (t : Table S) : Decidable (r ∈ t) :=
  inferInstanceAs (Decidable (r ∈ t.rows))

instance [DecidableEq ρ] : DecidableEq (Table S) := fun a b =>
  match decEq a.rows b.rows with
  | .isTrue h => .isTrue (by cases a; cases b; subst h; rfl)
  | .isFalse h => .isFalse fun hab => h (congrArg Table.rows hab)

@[simp] theorem mem_rows : r ∈ t.rows ↔ r ∈ t := Iff.rfl

@[ext] theorem ext (h : t.rows = t'.rows) : t = t' := by
  cases t
  cases t'
  subst h
  rfl

theorem check_of_mem (h : r ∈ t) : S.check r = true := t.checked r h

/-- The table with no rows. -/
def empty : Table S := ⟨[], .nil, by simp⟩

@[simp] theorem not_mem_empty : r ∉ (empty : Table S) := List.not_mem_nil

/-- **Rows are determined by their keys**: a row that clashes with another one is that one. -/
theorem eq_of_clash (hr : r ∈ t) (hx : x ∈ t) (h : S.clash r x = true) : r = x := by
  by_contra hne
  have hsymm : Std.Symm fun a b => S.clash a b = false := ⟨fun a b hab => by rwa [S.clash_symm]⟩
  have := t.distinct.forall hr hx hne
  simp [h] at this

/-! ### Inserting -/

/-- `INSERT`: append the row, unless it fails a check or clashes with an existing row. -/
def insert (t : Table S) (r : ρ) : Except Violation (Table S) :=
  if hc : S.check r = true then
    if hu : ∀ x ∈ t.rows, S.clash x r = false then
      .ok ⟨t.rows ++ [r],
        List.pairwise_append.2 ⟨t.distinct, List.pairwise_singleton _ _, by simpa using hu⟩,
        by
          intro x hx
          rcases List.mem_append.1 hx with hx | hx
          · exact t.checked x hx
          · rwa [List.mem_singleton.1 hx]⟩
    else .error .unique
  else .error .check

/-- What a successful `INSERT` means. -/
theorem insert_ok (h : t.insert r = .ok t') :
    t'.rows = t.rows ++ [r] ∧ S.check r = true ∧ ∀ x ∈ t, S.clash x r = false := by
  unfold insert at h
  split at h
  · rename_i hc
    split at h
    · rename_i hu
      cases h
      exact ⟨rfl, hc, hu⟩
    · cases h
  · cases h

/-- A row that passes the checks and clashes with no existing row is inserted. -/
theorem exists_insert (hc : S.check r = true) (hu : ∀ x ∈ t, S.clash x r = false) :
    ∃ t', t.insert r = .ok t' := by
  have hu' : ∀ x ∈ t.rows, S.clash x r = false := hu
  unfold insert
  rw [dif_pos hc, dif_pos hu']
  exact ⟨_, rfl⟩

theorem mem_insert (h : t.insert r = .ok t') : x ∈ t' ↔ x ∈ t ∨ x = r := by
  rw [← mem_rows, (insert_ok h).1, List.mem_append, List.mem_singleton, mem_rows]

theorem not_mem_of_insert (hself : S.clash r r = true) (h : t.insert r = .ok t') : r ∉ t := by
  intro hr
  have hclash := (insert_ok h).2.2 r hr
  rw [hself] at hclash
  cases hclash

/-- `INSERT … ON CONFLICT DO NOTHING`: a clashing row leaves the table as it is. -/
def insertOrIgnore (t : Table S) (r : ρ) : Except Violation (Table S) :=
  if S.check r = true then
    match t.insert r with
    | .ok t' => .ok t'
    | .error _ => .ok t
  else .error .check

/-- What a successful `INSERT … ON CONFLICT DO NOTHING` means. -/
theorem insertOrIgnore_ok (h : t.insertOrIgnore r = .ok t') :
    t.insert r = .ok t' ∨ (t' = t ∧ ∃ x ∈ t, S.clash x r = true) := by
  unfold insertOrIgnore at h
  split at h
  · rename_i hc
    split at h
    · rename_i u hu
      cases h
      exact .inl hu
    · rename_i e he
      cases h
      refine .inr ⟨rfl, ?_⟩
      by_contra hno
      have hfree : ∀ x ∈ t, S.clash x r = false := by simpa using hno
      obtain ⟨u, hu⟩ := exists_insert hc hfree
      rw [hu] at he
      cases he
  · cases h

theorem mem_insertOrIgnore_of_mem (h : t.insertOrIgnore r = .ok t') (hx : x ∈ t) : x ∈ t' := by
  rcases insertOrIgnore_ok h with h | ⟨rfl, _⟩
  · exact (mem_insert h).2 (.inl hx)
  · exact hx

/-! ### Deleting and updating -/

/-- `DELETE … WHERE p`. -/
def delete (t : Table S) (p : ρ → Bool) : Table S :=
  ⟨t.rows.filter fun r => !p r, t.distinct.sublist List.filter_sublist,
    fun r hr => t.checked r (List.mem_filter.1 hr).1⟩

@[simp] theorem rows_delete : (t.delete p).rows = t.rows.filter fun r => !p r := rfl

@[simp] theorem mem_delete : r ∈ t.delete p ↔ r ∈ t ∧ p r = false := by
  rw [← mem_rows, rows_delete, List.mem_filter, mem_rows, Bool.not_eq_true']

/-- `UPDATE … SET f WHERE p`: every row that satisfies `p` is rewritten, unless a
rewritten row fails a check or comes to clash with another row. -/
def update (t : Table S) (p : ρ → Bool) (f : ρ → ρ) : Except Violation (Table S) :=
  let rows := t.rows.map fun r => if p r then f r else r
  if hc : ∀ r ∈ rows, S.check r = true then
    if hd : rows.Pairwise fun a b => S.clash a b = false then .ok ⟨rows, hd, hc⟩
    else .error .unique
  else .error .check

theorem rows_update (h : t.update p f = .ok t') :
    t'.rows = t.rows.map fun r => if p r then f r else r := by
  simp only [update] at h
  split at h
  · split at h
    · cases h
      rfl
    · cases h
  · cases h

/-- The rows after an update are the rewritten rows and the ones it left alone. -/
theorem mem_update (h : t.update p f = .ok t') :
    x ∈ t' ↔ (∃ r ∈ t, p r = true ∧ f r = x) ∨ (x ∈ t ∧ p x = false) := by
  rw [← mem_rows, rows_update h, List.mem_map]
  constructor
  · rintro ⟨r, hr, rfl⟩
    cases hp : p r
    · exact .inr (by simpa [hp] using hr)
    · exact .inl ⟨r, hr, hp, by simp⟩
  · rintro (⟨r, hr, hp, rfl⟩ | ⟨hx, hp⟩)
    · exact ⟨r, hr, by simp [hp]⟩
    · exact ⟨x, hx, by simp [hp]⟩

/-- An update that no row satisfies changes nothing. -/
theorem update_eq_self (hp : ∀ r ∈ t, p r = false) (h : t.update p f = .ok t') : t' = t := by
  ext1
  rw [rows_update h]
  conv_rhs => rw [← List.map_id t.rows]
  refine List.map_congr_left fun r hr => ?_
  simp [hp r hr]

/-! ### Reading -/

/-- `SELECT … WHERE p` read as a single row. -/
def lookup (t : Table S) (p : ρ → Bool) : Option ρ := t.rows.find? p

theorem lookup_mem (h : t.lookup p = some r) : r ∈ t ∧ p r = true :=
  ⟨List.mem_of_find?_eq_some h, List.find?_some h⟩

theorem lookup_none (h : t.lookup p = none) (hr : r ∈ t) : p r = false := by
  simpa using List.find?_eq_none.1 h r hr

/-- A predicate that selects by a key finds the row that has that key. -/
theorem lookup_eq_some (hkey : ∀ a b, p a = true → p b = true → S.clash a b = true)
    (hr : r ∈ t) (hp : p r = true) : t.lookup p = some r := by
  cases h : t.lookup p with
  | none => simp [lookup_none h hr] at hp
  | some x =>
    obtain ⟨hx, hpx⟩ := lookup_mem h
    rw [eq_of_clash hx hr (hkey x r hpx hp)]

/-- A predicate that selects by a key selects no row or one. -/
theorem filter_of_key (hkey : ∀ a b, p a = true → p b = true → S.clash a b = true) :
    (t.rows.filter p = [] ∧ ∀ r ∈ t, p r = false) ∨ ∃ r ∈ t, p r = true ∧ t.rows.filter p = [r] := by
  have hdistinct := t.distinct.sublist (List.filter_sublist (p := p))
  have hmem : ∀ r ∈ t.rows.filter p, r ∈ t ∧ p r = true := fun r hr => List.mem_filter.1 hr
  cases hrows : t.rows.filter p with
  | nil =>
    refine .inl ⟨rfl, fun r hr => ?_⟩
    by_contra hp
    have : r ∈ t.rows.filter p := List.mem_filter.2 ⟨hr, by simpa using hp⟩
    rw [hrows] at this
    cases this
  | cons a rest =>
    rw [hrows] at hmem hdistinct
    obtain ⟨ha, hpa⟩ := hmem a List.mem_cons_self
    cases rest with
    | nil => exact .inr ⟨a, ha, hpa, rfl⟩
    | cons b rest =>
      have hfalse := (List.pairwise_cons.1 hdistinct).1 b List.mem_cons_self
      rw [hkey a b hpa (hmem b (by simp)).2] at hfalse
      cases hfalse

/-- Some row satisfies the predicate. -/
def any (t : Table S) (p : ρ → Bool) : Bool := t.rows.any p

theorem any_eq_true : t.any p = true ↔ ∃ r ∈ t, p r = true := List.any_eq_true

theorem any_eq_false : t.any p = false ↔ ∀ r ∈ t, p r = false := by
  simp [any, List.any_eq_false]

/-- `SELECT COUNT(*) … WHERE p`. -/
def count (t : Table S) (p : ρ → Bool) : ℕ := t.rows.countP p

theorem count_eq_zero : t.count p = 0 ↔ ∀ r ∈ t, p r = false := by
  simp [count, List.countP_eq_zero]

theorem count_insert (h : t.insert r = .ok t') : t'.count p = t.count p + (p r).toNat := by
  rw [count, count, (insert_ok h).1, List.countP_append, List.countP_singleton]
  cases p r <;> rfl

/-- An inserted row is not among the selected ones, if it is not selected. -/
theorem filter_insert (hp : p r = false) (h : t.insert r = .ok t') :
    t'.rows.filter p = t.rows.filter p := by
  rw [(insert_ok h).1, List.filter_append]
  simp [hp]

/-- Deleted rows are not among the selected ones, if none is selected. -/
theorem filter_delete {q : ρ → Bool} (hpq : ∀ x, p x = true → q x = false) :
    (t.delete q).rows.filter p = t.rows.filter p := by
  rw [rows_delete, List.filter_filter]
  refine List.filter_congr fun x _ => ?_
  cases hpx : p x
  · simp
  · simp [hpq x hpx]

/-! ### Values of a column -/

section Has

variable {κ : Type*} {f : ρ → κ} {k : κ}

/-- Some row has this value in a column. -/
def Has (t : Table S) (f : ρ → κ) (k : κ) : Prop := ∃ r ∈ t, f r = k

instance [DecidableEq κ] (t : Table S) (f : ρ → κ) (k : κ) : Decidable (t.Has f k) :=
  decidable_of_iff (t.rows.any fun r => decide (f r = k)) (by simp [Has])

@[simp] theorem not_has_empty : ¬ (empty : Table S).Has f k := by
  rintro ⟨r, hr, _⟩
  exact not_mem_empty hr

theorem has_of_mem (h : r ∈ t) : t.Has f (f r) := ⟨r, h, rfl⟩

theorem has_insert (h : t.insert r = .ok t') : t'.Has f k ↔ t.Has f k ∨ f r = k := by
  simp only [Has, mem_insert h, or_and_right, exists_or, exists_eq_left]

/-- A row that could be inserted had a new value in a column that determines the key. -/
theorem not_has_of_insert (hkey : ∀ x, f x = f r → S.clash x r = true) (h : t.insert r = .ok t') :
    ¬ t.Has f (f r) := by
  rintro ⟨x, hx, hxr⟩
  have := (insert_ok h).2.2 x hx
  simp [hkey x hxr] at this

theorem has_insertOrIgnore (hkey : ∀ x, S.clash x r = true → f x = f r)
    (h : t.insertOrIgnore r = .ok t') : t'.Has f k ↔ t.Has f k ∨ f r = k := by
  rcases insertOrIgnore_ok h with h | ⟨rfl, x, hx, hclash⟩
  · exact has_insert h
  · refine ⟨.inl, ?_⟩
    rintro (h | rfl)
    · exact h
    · exact ⟨x, hx, hkey x hclash⟩

theorem has_delete_of_has (h : (t.delete p).Has f k) : t.Has f k := by
  obtain ⟨r, hr, hk⟩ := h
  exact ⟨r, (mem_delete.1 hr).1, hk⟩

/-- Deleting the rows with one value of a column deletes that value and no other. -/
theorem has_delete {c : κ} (hp : ∀ x ∈ t, p x = true ↔ f x = c) :
    (t.delete p).Has f k ↔ t.Has f k ∧ k ≠ c := by
  constructor
  · rintro ⟨x, hx, rfl⟩
    obtain ⟨hmem, hpx⟩ := mem_delete.1 hx
    refine ⟨⟨x, hmem, rfl⟩, fun heq => ?_⟩
    simp [(hp x hmem).2 heq] at hpx
  · rintro ⟨⟨x, hx, rfl⟩, hne⟩
    refine ⟨x, mem_delete.2 ⟨hx, ?_⟩, rfl⟩
    by_contra hpx
    exact hne ((hp x hx).1 (by simpa using hpx))

end Has

end Table

end GoEtl.Library
