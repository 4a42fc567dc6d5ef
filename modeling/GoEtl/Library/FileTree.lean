import Mathlib.Data.List.Pairwise

/-!
# A tree of files

The part of a file system that a program sees which reads, removes and writes whole files by their paths: the files,
each with the names on the way to it and its contents. A directory is a path that a file lies below, so that
directories come and go with their files, and no file lies below another one: a tree where one does cannot be built.

`read` and `write` fail as the operating system's calls do, when the path leads through a file or is a directory.
A program's reasoning about contents needs two facts: what was written is read (`read_write_self`), and what
was there and was not written to is read as before (`read_write_other`).
-/

namespace GoEtl.Library

/-- Why a call on a path fails. -/
inductive FileError where
  /-- There is nothing at the path. -/
  | notExist
  /-- A file lies on the way to the path. -/
  | notDirectory
  /-- The path is a directory. -/
  | isDirectory
  deriving DecidableEq, Repr

/-- The files, none of them below another one. -/
structure FileTree (ι δ : Type*) where
  entries : List (List ι × δ)
  apart : entries.Pairwise fun a b => ¬ a.1 <+: b.1 ∧ ¬ b.1 <+: a.1

namespace FileTree

variable {ι δ : Type*} [DecidableEq ι] {tree tree' : FileTree ι δ} {path other : List ι} {data old : δ}

/-- A file lies on the way to the path. -/
def above (tree : FileTree ι δ) (path : List ι) : Bool :=
  tree.entries.any fun entry => decide (entry.1 <+: path ∧ entry.1 ≠ path)

/-- A file lies below the path. -/
def below (tree : FileTree ι δ) (path : List ι) : Bool :=
  tree.entries.any fun entry => decide (path <+: entry.1 ∧ entry.1 ≠ path)

/-- The contents of the file at the path. -/
def read (tree : FileTree ι δ) (path : List ι) : Except FileError δ :=
  match tree.entries.find? fun entry => decide (entry.1 = path) with
  | some entry => .ok entry.2
  | none =>
    if tree.above path then .error .notDirectory
    else if tree.below path then .error .isDirectory
    else .error .notExist

/-- The tree without the file at the path. -/
def remove (tree : FileTree ι δ) (path : List ι) : FileTree ι δ :=
  ⟨tree.entries.filter fun entry => decide (entry.1 ≠ path), tree.apart.filter _⟩

/-- No file above the path or below it is in the way of one at the path. -/
theorem apart_remove (habove : tree.above path = false) (hbelow : tree.below path = false) :
    ∀ entry ∈ (tree.remove path).entries, ¬ path <+: entry.1 ∧ ¬ entry.1 <+: path := by
  intro entry hentry
  obtain ⟨hmem, hne⟩ := List.mem_filter.1 hentry
  have hne : entry.1 ≠ path := by simpa using hne
  refine ⟨fun hunder => ?_, fun hover => ?_⟩
  · have := List.any_eq_false.1 hbelow entry hmem
    simp [hunder, hne] at this
  · have := List.any_eq_false.1 habove entry hmem
    simp [hover, hne] at this

/-- Write the file at the path, whether or not there is one, with the directories on the way. -/
def write (tree : FileTree ι δ) (path : List ι) (data : δ) : Except FileError (FileTree ι δ) :=
  if habove : tree.above path then .error .notDirectory
  else if hbelow : tree.below path then .error .isDirectory
  else .ok ⟨(path, data) :: (tree.remove path).entries,
    .cons (apart_remove (by simpa using habove) (by simpa using hbelow)) (tree.remove path).apart⟩

/-- What can be read is what the files are. -/
theorem read_eq_ok : tree.read path = .ok data ↔ (path, data) ∈ tree.entries := by
  constructor
  · intro h
    unfold read at h
    split at h
    · rename_i entry hfind
      cases h
      have hpath : entry.1 = path := by simpa using List.find?_some hfind
      rw [← hpath]
      exact List.mem_of_find?_eq_some hfind
    · split at h
      · cases h
      · split at h <;> cases h
  · intro hmem
    unfold read
    cases hfind : tree.entries.find? fun entry => decide (entry.1 = path) with
    | none => exact absurd (List.find?_eq_none.1 hfind _ hmem) (by simp)
    | some entry =>
      have hpath : entry.1 = path := by simpa using List.find?_some hfind
      -- Two files at one path would be one below the other.
      have hsame : entry = (path, data) := by
        by_contra hne
        have hsymm : Std.Symm fun a b : List ι × δ => ¬ a.1 <+: b.1 ∧ ¬ b.1 <+: a.1 := ⟨fun _ _ h => h.symm⟩
        have hapart := tree.apart.forall (List.mem_of_find?_eq_some hfind) hmem hne
        exact hapart.1 ⟨[], by rw [List.append_nil, hpath]⟩
      rw [hsame]

/-- What was written is read. -/
theorem read_write_self (h : tree.write path data = .ok tree') : tree'.read path = .ok data := by
  rw [read_eq_ok]
  unfold write at h
  split at h
  · cases h
  split at h
  · cases h
  cases h
  exact List.mem_cons_self

/-- The other files are read as before. -/
theorem read_write_other (h : tree.write path data = .ok tree') (hne : other ≠ path) (hread : tree.read other = .ok old) :
    tree'.read other = .ok old := by
  rw [read_eq_ok] at hread ⊢
  unfold write at h
  split at h
  · cases h
  split at h
  · cases h
  cases h
  exact List.mem_cons_of_mem _ (List.mem_filter.2 ⟨hread, by simpa using hne⟩)

theorem read_remove_other (hne : other ≠ path) (hread : tree.read other = .ok old) :
    (tree.remove path).read other = .ok old := by
  rw [read_eq_ok] at hread ⊢
  exact List.mem_filter.2 ⟨hread, by simpa using hne⟩

end FileTree

end GoEtl.Library
