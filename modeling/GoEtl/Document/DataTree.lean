import Mathlib.Data.Char
import Mathlib.Data.List.Lex
import GoEtl.Library.Layers
import GoEtl.Library.Lookup
import GoEtl.Library.Transaction
import GoEtl.Text.Chars

/-!
# Data trees and their overlay

The data of a document is a tree of scalars, lists and objects. A path leads through objects, and the *view* of a tree says
what is at each path: nothing, an object, or a leaf, which is everything else. A list is a leaf as a whole.

`overlay` says what laying trees one over the other is: the next tree is walked field by field, objects meet objects and
leaves replace leaves. It succeeds if no tree has a null and no path leads to an object in one tree and to a leaf in
another, and the view of the result is the layered view of the trees (`overlay_spec`). So overlaying is associative because
layering is (`overlay_groups`).
-/

namespace GoEtl.Document

open Library Text

/-- What children are held in. -/
inductive Kind where
  | list
  | object
  deriving DecidableEq, Repr

/-- A tree of data with scalars in `α` and a note in `β` at every list and object. The children of a list are labelled with
their indexes, and those of an object, a map of Go, with their keys; they are kept in the order in which the package goes
through them. -/
inductive DataTree (α β : Type) where
  | null
  | scalar (value : α)
  | node (note : β) (kind : Kind) (children : List (Chars × DataTree α β))

/-- A tree without notes. -/
abbrev Tree (α : Type) := DataTree α Unit

/-- The fields of an object. -/
abbrev Fields (α : Type) := List (Chars × Tree α)

namespace DataTree

variable {α β : Type}

mutual

/-- There is no null in the tree. -/
def nullFree : DataTree α β → Bool
  | .null => false
  | .scalar _ => true
  | .node _ _ children => nullFreeAll children

/-- There is no null in the children. -/
def nullFreeAll : List (Chars × DataTree α β) → Bool
  | [] => true
  | (_, child) :: rest => child.nullFree && nullFreeAll rest

end

mutual

/-- How deep lists and objects are nested. -/
def depth : DataTree α β → ℕ
  | .node _ _ children => depthAll children + 1
  | _ => 0

/-- The depth of the deepest child. -/
def depthAll : List (Chars × DataTree α β) → ℕ
  | [] => 0
  | (_, child) :: rest => max child.depth (depthAll rest)

end

mutual

/-- The keys of every object are in order. -/
def Valid : DataTree α β → Prop
  | .node _ kind children => (kind = .object → InOrder children) ∧ ValidAll children
  | _ => True

/-- The children are valid. -/
def ValidAll : List (Chars × DataTree α β) → Prop
  | [] => True
  | (_, child) :: rest => child.Valid ∧ ValidAll rest

end

variable {children : List (Chars × DataTree α β)}

theorem nullFreeAll_iff : nullFreeAll children = true ↔ ∀ child ∈ children, child.2.nullFree = true := by
  induction children with
  | nil => simp [nullFreeAll]
  | cons child rest ih => simp [nullFreeAll, ih]

theorem depthAll_le {bound : ℕ} : depthAll children ≤ bound ↔ ∀ child ∈ children, child.2.depth ≤ bound := by
  induction children with
  | nil => simp [depthAll]
  | cons child rest ih => simp [depthAll, ih]

theorem validAll_iff : ValidAll children ↔ ∀ child ∈ children, child.2.Valid := by
  induction children with
  | nil => simp [ValidAll]
  | cons child rest ih => simp [ValidAll, ih]

/-- Induction over a tree: what holds of all children holds of the node. -/
theorem children_induction {motive : DataTree α β → Prop} (null : motive .null) (scalar : ∀ value, motive (.scalar value))
    (node : ∀ note kind children, (∀ child ∈ children, motive child.2) → motive (.node note kind children)) :
    ∀ tree, motive tree
  | .null => null
  | .scalar value => scalar value
  | .node note kind children => node note kind children fun (_, child) _ => children_induction null scalar node child
decreasing_by
  have := List.sizeOf_lt_of_mem ‹_ ∈ children›
  simp only [Prod.mk.sizeOf_spec, DataTree.node.sizeOf_spec] at this ⊢
  omega

/-! ### Views -/

/-- The subtree at a path. -/
def find : DataTree α β → List Chars → Option (DataTree α β)
  | tree, [] => some tree
  | .node _ .object fields, key :: path => (fields.lookup key).bind fun child => child.find path
  | _, _ :: _ => none

/-- What stands at the root: an object, or a leaf. -/
def leaf? : DataTree α β → Option (DataTree α β)
  | .node _ .object _ => none
  | tree => some tree

/-- What stands at each path. -/
def view (tree : DataTree α β) (path : List Chars) : Option (Option (DataTree α β)) := (tree.find path).map leaf?

/-- The view of what may be missing. -/
def viewOf (tree : Option (DataTree α β)) (path : List Chars) : Option (Option (DataTree α β)) := tree.bind (·.view path)

@[simp] theorem view_nil (tree : DataTree α β) : tree.view [] = some tree.leaf? := by
  simp [view, find]

@[simp] theorem view_object_cons (note : β) (fields : List (Chars × DataTree α β)) (key : Chars) (path : List Chars) :
    (DataTree.node note .object fields).view (key :: path) = viewOf (fields.lookup key) path := by
  simp only [view, find, viewOf]
  cases fields.lookup key <;> rfl

variable {tree : DataTree α β}

theorem view_leaf (h : tree.leaf? = some tree) (key : Chars) (path : List Chars) :
    tree.view (key :: path) = none := by
  cases tree with
  | null => rfl
  | scalar value => rfl
  | node note kind children => cases kind with
    | list => rfl
    | object => cases h

/-- A tree is an object or a leaf. -/
theorem leaf?_cases (tree : DataTree α β) : tree.leaf? = some tree ∨ ∃ note fields, tree = .node note .object fields := by
  cases tree with
  | null => exact .inl rfl
  | scalar value => exact .inl rfl
  | node note kind children => cases kind with
    | list => exact .inl rfl
    | object => exact .inr ⟨note, children, rfl⟩

theorem leaf?_eq_some {leaf : DataTree α β} (h : tree.leaf? = some leaf) : tree = leaf := by
  rcases tree.leaf?_cases with hleaf | ⟨note, fields, rfl⟩
  · exact Option.some.inj (hleaf.symm.trans h)
  · cases h

/-- **Nulls are in leaves**, which the view shows. -/
theorem nullFree_iff_view (hvalid : tree.Valid) :
    tree.nullFree = true ↔ ∀ path leaf, tree.view path = some (some leaf) → leaf.nullFree = true := by
  constructor
  · intro h path leaf hleaf
    induction path generalizing tree with
    | nil =>
      rw [view_nil, Option.some.injEq] at hleaf
      rw [← leaf?_eq_some hleaf]
      exact h
    | cons key path ih =>
      rcases tree.leaf?_cases with hroot | ⟨note, fields, rfl⟩
      · rw [view_leaf hroot] at hleaf
        cases hleaf
      · rw [view_object_cons] at hleaf
        obtain ⟨child, hchild, hleaf⟩ := Option.bind_eq_some_iff.1 hleaf
        have hmem := mem_of_lookup hchild
        exact ih (validAll_iff.1 hvalid.2 _ hmem) (nullFreeAll_iff.1 h _ hmem) hleaf
  · -- By induction over the tree: a child is found at its key, as no key occurs twice.
    induction tree using children_induction with
    | null => exact fun h => h [] .null rfl
    | scalar value => exact fun _ => rfl
    | node note kind children ih =>
      intro h
      cases kind with
      | list => exact h [] _ rfl
      | object =>
        refine nullFreeAll_iff.2 fun child hchild => ih child hchild (validAll_iff.1 hvalid.2 child hchild) ?_
        refine fun path leaf hleaf => h (child.1 :: path) leaf ?_
        rw [view_object_cons, (lookup_iff_mem (hvalid.1 rfl).nodup).2 hchild]
        exact hleaf

/-- Objects are compatible if their fields are. -/
theorem compatible_object {note note' : β} {target source : List (Chars × DataTree α β)} :
    Compatible Option.isNone (DataTree.node note .object target).view (DataTree.node note' .object source).view ↔
      ∀ key next, source.lookup key = some next → Compatible Option.isNone (viewOf (target.lookup key)) next.view := by
  constructor
  · intro h key next hnext path x y hx hy
    refine h (key :: path) x y ?_ ?_
    · rw [view_object_cons]
      exact hx
    · rw [view_object_cons, hnext]
      exact hy
  · intro h path x y hx hy
    cases path with
    | nil =>
      rw [view_nil, Option.some.injEq] at hx hy
      rw [← hx, ← hy]
      rfl
    | cons key path =>
      rw [view_object_cons] at hx hy
      obtain ⟨next, hnext, hy⟩ := Option.bind_eq_some_iff.1 hy
      exact h key next hnext path x y hx hy

end DataTree

/-! ### Overlays -/

open DataTree

variable {α : Type}

mutual

/-- The next value, over what is there: objects are merged, leaves are replaced. -/
def mergeValue : Tree α → Option (Tree α) → Option (Tree α)
  | .node _ .object source, current =>
    if !nullFreeAll source then none
    else
      match current with
      | none => some (.node () .object source)
      | some (.node _ .object target) => (mergeFields source target).map (.node () .object)
      | some _ => none
  | next, current =>
    if !next.nullFree then none
    else
      match current with
      | some (.node _ .object _) => none
      | _ => some next

/-- The fields of the next object, over those of the target. -/
def mergeFields : Fields α → Fields α → Option (Fields α)
  | [], target => some target
  | (key, next) :: rest, target =>
    match mergeValue next (target.lookup key) with
    | some value => mergeFields rest (putSorted key value target)
    | none => none

end

/-- All layers, one over the other. -/
def overlay (layers : List (Fields α)) : Option (Fields α) :=
  layers.foldlM (fun target source => mergeFields source target) []

/-- The view of an object with these fields. -/
abbrev fieldsView (fields : Fields α) : List Chars → Option (Option (Tree α)) := (DataTree.node () .object fields).view

variable {next : Tree α}

theorem mergeValue_leaf (h : next.leaf? = some next) (current : Option (Tree α)) :
    mergeValue next current =
      if !next.nullFree then none
      else
        match current with
        | some (.node _ .object _) => none
        | _ => some next := by
  cases next with
  | null => rfl
  | scalar value => rfl
  | node note kind children => cases kind with
    | list => rfl
    | object => cases h

/-- What an object is put over. -/
theorem mergeValue_object (source : Fields α) (current : Option (Tree α)) :
    mergeValue (.node () .object source) current =
      if !nullFreeAll source then none
      else
        match current with
        | none => some (.node () .object source)
        | some (.node _ .object target) => (mergeFields source target).map (.node () .object)
        | some _ => none := rfl

variable {next : Tree α}

/-- A value with a null cannot be merged. -/
theorem mergeValue_null (h : next.nullFree = false) (current : Option (Tree α)) : mergeValue next current = none := by
  rcases next.leaf?_cases with hleaf | ⟨⟨⟩, fields, rfl⟩
  · rw [mergeValue_leaf hleaf, h]
    rfl
  · rw [mergeValue_object, show nullFreeAll fields = false from h]
    rfl

theorem mergeValue_new (h : next.nullFree = true) : mergeValue next none = some next := by
  rcases next.leaf?_cases with hleaf | ⟨⟨⟩, fields, rfl⟩
  · rw [mergeValue_leaf hleaf, h]
    rfl
  · rw [mergeValue_object, show nullFreeAll fields = true from h]
    rfl

theorem mergeValue_replace {current : Tree α} (hnext : next.leaf? = some next) (hnull : next.nullFree = true)
    (hcurrent : current.leaf? = some current) : mergeValue next (some current) = some next := by
  rw [mergeValue_leaf hnext, hnull]
  split
  · contradiction
  · split
    · rename_i heq
      obtain rfl := Option.some.inj heq
      cases hcurrent
    · rfl

theorem mergeValue_conflict (fields : Fields α) {current : Tree α} (hcurrent : current.leaf? = some current) :
    mergeValue (.node () .object fields) (some current) = none := by
  rw [mergeValue_object]
  split
  · rfl
  · split
    · contradiction
    · rename_i heq
      obtain rfl := Option.some.inj heq
      cases hcurrent
    · rfl

theorem mergeValue_blocked (hnext : next.leaf? = some next) (note : Unit) (fields : Fields α) :
    mergeValue next (some (.node note .object fields)) = none := by
  rw [mergeValue_leaf hnext, ite_self]

/-- A leaf is compatible with what is no object. -/
theorem compatible_leaf (h : next.leaf? = some next) (current : Option (Tree α)) :
    Compatible Option.isNone (viewOf current) next.view ↔ ∀ note fields, current ≠ some (.node note .object fields) := by
  constructor
  · rintro hcompatible note fields rfl
    have := hcompatible [] none (some next) rfl (by rw [view_nil, h])
    cases this
  · intro hnot path x y hx hy
    cases path with
    | nil =>
      rw [view_nil, h, Option.some.injEq] at hy
      obtain ⟨tree, rfl, htree⟩ := Option.bind_eq_some_iff.1 hx
      clear hx
      rw [view_nil, Option.some.injEq] at htree
      rcases tree.leaf?_cases with hleaf | ⟨note, fields, rfl⟩
      · rw [← htree, ← hy, hleaf]
        rfl
      · exact absurd rfl (hnot note fields)
    | cons key path =>
      rw [view_leaf h] at hy
      cases hy

/-- Every view is compatible with that of nothing. -/
theorem compatible_nothing (next : Tree α) : Compatible Option.isNone (viewOf none) next.view := by
  intro path x y hx
  cases hx

variable {target rest : Fields α} {key : Chars}

/-- Fields are compatible if the first is and the rest are. -/
theorem compatible_cons (hkey : key ∉ rest.map Prod.fst) :
    Compatible Option.isNone (fieldsView target) (fieldsView ((key, next) :: rest)) ↔
      Compatible Option.isNone (viewOf (target.lookup key)) next.view ∧
        Compatible Option.isNone (fieldsView target) (fieldsView rest) := by
  rw [compatible_object, compatible_object]
  constructor
  · intro h
    refine ⟨h key next (by rw [lookup_cons_ite, if_pos rfl]), fun other value hother => h other value ?_⟩
    have hne : other ≠ key := by
      rintro rfl
      exact hkey (List.mem_map_of_mem (mem_of_lookup hother))
    rw [lookup_cons_ite, if_neg hne, hother]
  · rintro ⟨hfirst, hrest⟩ other value hother
    rw [lookup_cons_ite] at hother
    split_ifs at hother with hsame
    · cases hother
      rw [hsame]
      exact hfirst
    · exact hrest other value hother

/-- A field that does not occur above does not matter below. -/
theorem compatible_putSorted (value : Tree α) (hkey : key ∉ rest.map Prod.fst) :
    Compatible Option.isNone (fieldsView (putSorted key value target)) (fieldsView rest) ↔
      Compatible Option.isNone (fieldsView target) (fieldsView rest) := by
  rw [compatible_object, compatible_object]
  refine forall_congr' fun other => forall_congr' fun next => forall_congr' fun hother => ?_
  have hne : other ≠ key := by
    rintro rfl
    exact hkey (List.mem_map_of_mem (mem_of_lookup hother))
  rw [lookup_putSorted, if_neg hne]

variable {value : Tree α}

/-- The views of the fields, from the first to the rest. -/
theorem over_cons (hkey : key ∉ rest.map Prod.fst)
    (hvalue : value.view = atop (viewOf (target.lookup key)) next.view) :
    atop (fieldsView (putSorted key value target)) (fieldsView rest) =
      atop (fieldsView target) (fieldsView ((key, next) :: rest)) := by
  funext path
  cases path with
  | nil => rfl
  | cons other path =>
    simp only [atop, view_object_cons, lookup_putSorted, lookup_cons_ite]
    by_cases hsame : other = key
    · subst hsame
      rw [if_pos rfl, if_pos rfl, lookup_of_not_mem hkey]
      show (none : Option _).or (value.view path) = _
      rw [hvalue]
      rfl
    · rw [if_neg hsame, if_neg hsame]

/-- When a value can be merged, and what it is then, can be read off the views. -/
abbrev MergesAsViews (next : Tree α) (current : Option (Tree α)) : Prop :=
  ((mergeValue next current).isSome ↔ next.nullFree = true ∧ Compatible Option.isNone (viewOf current) next.view) ∧
    ∀ value, mergeValue next current = some value → value.view = atop (viewOf current) next.view

/-- **A leaf is put in the place of a leaf or of nothing.** -/
theorem mergeLeaf_spec (h : next.leaf? = some next) (hnull : next.nullFree = true) (current : Option (Tree α)) :
    MergesAsViews next current := by
  rw [MergesAsViews, compatible_leaf h]
  rcases current with _ | tree
  · rw [mergeValue_new hnull]
    refine ⟨iff_of_true rfl ⟨hnull, by simp⟩, fun value hvalue => ?_⟩
    cases hvalue
    funext path
    simp [atop, viewOf]
  rcases tree.leaf?_cases with htree | ⟨note, fields, rfl⟩
  · rw [mergeValue_replace h hnull htree]
    refine ⟨iff_of_true rfl ⟨hnull, ?_⟩, fun value hvalue => ?_⟩
    · rintro note fields ⟨⟩
      cases htree
    · cases hvalue
      funext path
      cases path with
      | nil => simp [atop]
      | cons key path => simp [atop, viewOf, view_leaf htree, view_leaf h]
  · rw [mergeValue_blocked h]
    exact ⟨iff_of_false (by simp) fun h => h.2 note fields rfl, by simp⟩

/-- A value with a null is not merged. -/
theorem mergeNull_spec (hnull : next.nullFree = false) (current : Option (Tree α)) :
    MergesAsViews next current := by
  rw [MergesAsViews, mergeValue_null hnull, hnull]
  exact ⟨iff_of_false (by simp) fun h => Bool.false_ne_true h.1, by simp⟩

theorem mergeLeaf_valid {current : Option (Tree α)} (h : next.leaf? = some next) (hvalid : next.Valid)
    (hvalue : mergeValue next current = some value) : value.Valid := by
  rw [mergeValue_leaf h] at hvalue
  split_ifs at hvalue
  split at hvalue
  · cases hvalue
  · cases hvalue
    exact hvalid

mutual

/-- **When a value can be merged, and what it is then.** -/
theorem mergeValue_spec : ∀ (next : Tree α) (current : Option (Tree α)), next.Valid →
    MergesAsViews next current
  | .null, current, _ => mergeNull_spec rfl current
  | .scalar _, current, _ => mergeLeaf_spec rfl rfl current
  | .node () .list children, current, _ => by
    rcases Bool.eq_false_or_eq_true (DataTree.node () .list children).nullFree with hnull | hnull
    · exact mergeLeaf_spec rfl hnull current
    · exact mergeNull_spec hnull current
  | .node () .object source, current, hvalid => by
    have hfields := fun target => mergeFields_spec source target (hvalid.1 rfl) hvalid.2
    rcases Bool.eq_false_or_eq_true (DataTree.node () .object source).nullFree with hnull | hnull
    · rcases current with _ | tree
      · rw [MergesAsViews, mergeValue_new hnull]
        refine ⟨iff_of_true rfl ⟨hnull, compatible_nothing _⟩, fun value hvalue => ?_⟩
        cases hvalue
        funext path
        simp [atop, viewOf]
      rcases tree.leaf?_cases with htree | ⟨note, target, rfl⟩
      · rw [MergesAsViews, mergeValue_conflict source htree]
        refine ⟨iff_of_false (by simp) fun h => ?_, by simp⟩
        have hbad := h.2 [] (some tree) none (by simp [viewOf, htree]) rfl
        cases hbad
      · obtain ⟨hsome, hview⟩ := hfields target
        rw [MergesAsViews, mergeValue_object, show nullFreeAll source = true from hnull, Bool.not_true, if_neg Bool.false_ne_true]
        refine ⟨?_, fun value hvalue => ?_⟩
        · rw [Option.isSome_map, hsome]
          exact Iff.rfl
        · obtain ⟨fields, hmerged, rfl⟩ := Option.map_eq_some_iff.1 hvalue
          exact hview fields hmerged
    · exact mergeNull_spec hnull current

/-- **When fields can be merged, and what they are then.** -/
theorem mergeFields_spec : ∀ (source target : Fields α), InOrder source → ValidAll source →
    ((mergeFields source target).isSome ↔ nullFreeAll source = true ∧
        Compatible Option.isNone (fieldsView target) (fieldsView source)) ∧
      ∀ fields, mergeFields source target = some fields → fieldsView fields = atop (fieldsView target) (fieldsView source)
  | [], target, _, _ => by
    refine ⟨iff_of_true rfl ⟨rfl, compatible_object.2 fun key next h => by cases h⟩, fun fields hfields => ?_⟩
    cases hfields
    funext path
    cases path with
    | nil => rfl
    | cons key path => simp [atop, viewOf]
  | (key, next) :: rest, target, horder, hvalid => by
    have hkey : key ∉ rest.map Prod.fst := (List.nodup_cons.1 horder.nodup).1
    obtain ⟨hsome, hview⟩ := mergeValue_spec next (target.lookup key) hvalid.1
    rw [compatible_cons hkey, nullFreeAll, Bool.and_eq_true]
    cases hmerged : mergeValue next (target.lookup key) with
    | none =>
      rw [hmerged] at hsome
      have hnone : mergeFields ((key, next) :: rest) target = none := by
        rw [mergeFields, hmerged]
      rw [hnone]
      refine ⟨iff_of_false (by simp) fun h => ?_, by simp⟩
      exact absurd (hsome.2 ⟨h.1.1, h.2.1⟩) (by simp)
    | some value =>
      have hstep : mergeFields ((key, next) :: rest) target = mergeFields rest (putSorted key value target) := by
        rw [mergeFields, hmerged]
      obtain ⟨hsome', hview'⟩ := mergeFields_spec rest (putSorted key value target) horder.of_cons hvalid.2
      have hfirst := hsome.1 (by rw [hmerged]; rfl)
      rw [hstep, hsome', compatible_putSorted value hkey]
      refine ⟨⟨fun h => ⟨⟨hfirst.1, h.1⟩, hfirst.2, h.2⟩, fun h => ⟨h.1.2, h.2.2⟩⟩, fun fields hfields => ?_⟩
      rw [hview' fields hfields, over_cons hkey (hview value hmerged)]

end

/-! ### Layers -/

/-- The keys of the fields, and of all objects in them, are in order. -/
def ValidFields (fields : Fields α) : Prop := InOrder fields ∧ ValidAll fields

theorem validFields_putSorted {fields : Fields α} (h : ValidFields fields) (key : Chars)
    (hvalue : value.Valid) : ValidFields (putSorted key value fields) := by
  refine ⟨inOrder_putSorted h.1 key value, validAll_iff.2 fun field hfield => ?_⟩
  rcases mem_putSorted hfield with rfl | hfield
  · exact hvalue
  · exact validAll_iff.1 h.2 field hfield

mutual

/-- A merged value is valid. -/
theorem mergeValue_valid : ∀ (next : Tree α) (current : Option (Tree α)), next.Valid →
    (∀ tree, current = some tree → tree.Valid) → ∀ value, mergeValue next current = some value → value.Valid
  | .null, current, hvalid, hcurrent, value, h => mergeLeaf_valid rfl hvalid h
  | .scalar _, current, hvalid, hcurrent, value, h => mergeLeaf_valid rfl hvalid h
  | .node _ .list children, current, hvalid, hcurrent, value, h => mergeLeaf_valid rfl hvalid h
  | .node () .object source, current, hvalid, hcurrent, value, h => by
    rw [mergeValue_object] at h
    split_ifs at h
    split at h
    · cases h
      exact hvalid
    · rename_i target
      obtain ⟨fields, hfields, rfl⟩ := Option.map_eq_some_iff.1 h
      have htarget := hcurrent _ rfl
      have hmerged := mergeFields_valid source target hvalid.2 ⟨htarget.1 rfl, htarget.2⟩ fields hfields
      exact ⟨fun _ => hmerged.1, hmerged.2⟩
    · cases h

/-- Merged fields are valid. -/
theorem mergeFields_valid : ∀ (source target : Fields α), ValidAll source → ValidFields target →
    ∀ fields, mergeFields source target = some fields → ValidFields fields
  | [], target, _, htarget, fields, h => by
    cases h
    exact htarget
  | (key, next) :: rest, target, hvalid, htarget, fields, h => by
    rw [mergeFields] at h
    split at h
    · rename_i value hvalue
      have hcurrent : ∀ tree, target.lookup key = some tree → tree.Valid :=
        fun tree htree => validAll_iff.1 htarget.2 _ (mem_of_lookup htree)
      have hvalue' := mergeValue_valid next _ hvalid.1 hcurrent value hvalue
      exact mergeFields_valid rest _ hvalid.2 (validFields_putSorted htarget key hvalue') fields h
    · cases h

end

/-- The root of every layer is an object, and the bottom has nothing else. -/
theorem compatible_bottom (fields : Fields α) : Compatible Option.isNone (fieldsView []) (fieldsView fields) :=
  compatible_object.2 fun _ next _ => compatible_nothing next

theorem allCompatible_bottom (layers : List (Fields α)) :
    AllCompatible Option.isNone (fieldsView [] :: layers.map fieldsView) ↔
      AllCompatible Option.isNone (layers.map fieldsView) := by
  constructor
  · exact fun h => h.mono (List.subset_cons_self ..)
  · intro h a ha b hb
    rcases List.mem_cons.1 ha with rfl | ha <;> rcases List.mem_cons.1 hb with rfl | hb
    · exact compatible_self _ _
    · obtain ⟨fields, _, rfl⟩ := List.mem_map.1 hb
      exact compatible_bottom fields
    · obtain ⟨fields, _, rfl⟩ := List.mem_map.1 ha
      exact (compatible_bottom fields).symm
    · exact h a ha b hb

/-- **When layers can be laid one over the other, and what they are then.** By induction over the layers, from the bottom. -/
theorem overlay_spec (layers : List (Fields α)) (hvalid : ∀ layer ∈ layers, ValidFields layer) :
    ((overlay layers).isSome ↔ (∀ layer ∈ layers, nullFreeAll layer = true) ∧
        AllCompatible Option.isNone (layers.map fieldsView)) ∧
      ∀ fields, overlay layers = some fields →
        ValidFields fields ∧ fieldsView fields = layered (fieldsView [] :: layers.map fieldsView) := by
  induction layers using List.reverseRecOn with
  | nil =>
    refine ⟨iff_of_true rfl ⟨by simp, by simp [AllCompatible]⟩, fun fields hfields => ?_⟩
    cases hfields
    refine ⟨⟨List.Pairwise.nil, trivial⟩, ?_⟩
    funext path
    simp [layered, atop]
  | append_singleton layers top ih =>
    rw [List.forall_mem_append, List.forall_mem_singleton] at hvalid
    obtain ⟨hsome, hview⟩ := ih hvalid.1
    have hstep : overlay (layers ++ [top]) = (overlay layers).bind fun target => mergeFields top target := by
      unfold overlay
      rw [List.foldlM_append]
      refine congrArg _ (funext fun target => ?_)
      simp
    rw [hstep, ← allCompatible_bottom, List.map_append, List.map_singleton, ← List.cons_append, allCompatible_concat, allCompatible_bottom,
      List.forall_mem_append, List.forall_mem_singleton]
    cases hbelow : overlay layers with
    | none =>
      rw [hbelow] at hsome
      refine ⟨iff_of_false (by simp) fun h => ?_, by simp⟩
      exact absurd (hsome.2 ⟨h.1.1, h.2.1⟩) (by simp)
    | some target =>
      rw [hbelow] at hsome
      obtain ⟨hcovered, hcompatible⟩ := hsome.1 rfl
      obtain ⟨htarget, htargetView⟩ := hview target hbelow
      obtain ⟨hsome', hview'⟩ := mergeFields_spec top target hvalid.2.1 hvalid.2.2
      rw [Option.bind_some, hsome', htargetView]
      refine ⟨⟨fun h => ⟨⟨hcovered, h.1⟩, hcompatible, h.2⟩, fun h => ⟨h.1.2, h.2.2⟩⟩, fun fields hfields => ?_⟩
      refine ⟨mergeFields_valid top target hvalid.2.2 htarget fields hfields, ?_⟩
      rw [hview' fields hfields, htargetView, layered_append]
      refine congrArg _ (funext fun path => ?_)
      simp [layered, atop]

/-- Below the root, the bottom does not show. -/
theorem layered_bottom (layers : List (List Chars → Option (Option (Tree α)))) (key : Chars) (path : List Chars) :
    layered (fieldsView [] :: layers) (key :: path) = layered layers (key :: path) := by
  simp [layered, atop, viewOf]

/-- Laid one over the other, layers without nulls have none. -/
theorem nullFreeAll_overlay {layers : List (Fields α)} {fields : Fields α} (hvalid : ∀ layer ∈ layers, ValidFields layer)
    (h : overlay layers = some fields) : nullFreeAll fields = true := by
  obtain ⟨hsome, hview⟩ := overlay_spec layers hvalid
  obtain ⟨hfields, hfieldsView⟩ := hview fields h
  have hroot : (DataTree.node () .object fields).Valid := ⟨fun _ => hfields.1, hfields.2⟩
  refine (nullFree_iff_view hroot).2 fun path leaf hleaf => ?_
  rw [show (DataTree.node () .object fields).view = _ from hfieldsView] at hleaf
  obtain ⟨below, layer, above, hlayers, hlayer, _⟩ := layered_eq_some.1 hleaf
  have hmem : layer ∈ fieldsView [] :: layers.map fieldsView := by
    rw [hlayers]
    simp
  rcases List.mem_cons.1 hmem with rfl | hmem
  · cases path with
    | nil => cases hlayer
    | cons key path => simp [viewOf] at hlayer
  · obtain ⟨source, hsource, rfl⟩ := List.mem_map.1 hmem
    have hvalidSource : (DataTree.node () .object source).Valid := ⟨fun _ => (hvalid source hsource).1, (hvalid source hsource).2⟩
    have hnull := (hsome.1 (by rw [h]; rfl)).1 source hsource
    exact (nullFree_iff_view hvalidSource).1 hnull path leaf hlayer

variable {groups : List (List (Fields α))}

/-- The views of the results of groups are the layered views of the groups. -/
theorem views_of_groups {results : List (Fields α)}
    (hvalid : ∀ group ∈ groups, ∀ layer ∈ group, ValidFields layer) (h : groups.mapM overlay = some results) :
    results.map fieldsView = (groups.map fun group => fieldsView [] :: group.map fieldsView).map layered ∧
      (∀ fields ∈ results, ValidFields fields ∧ nullFreeAll fields = true) ∧ ∀ group ∈ groups, (overlay group).isSome := by
  induction groups generalizing results with
  | nil =>
    cases h
    simp
  | cons group groups ih =>
    rw [List.forall_mem_cons] at hvalid
    rw [List.mapM_cons] at h
    obtain ⟨fields, hfields, h⟩ := Option.bind_eq_some_iff.1 h
    obtain ⟨others, hothers, h⟩ := Option.bind_eq_some_iff.1 h
    cases h
    obtain ⟨hviews, hresults, hsome⟩ := ih hvalid.2 hothers
    obtain ⟨hvalidFields, hview⟩ := (overlay_spec group hvalid.1).2 fields hfields
    refine ⟨?_, List.forall_mem_cons.2 ⟨⟨hvalidFields, nullFreeAll_overlay hvalid.1 hfields⟩, hresults⟩, ?_⟩
    · rw [List.map_cons, List.map_cons, List.map_cons, hviews, hview]
    · exact List.forall_mem_cons.2 ⟨by rw [hfields]; rfl, hsome⟩

/-- There are results if every group has one. -/
theorem exists_results (h : ∀ group ∈ groups, (overlay group).isSome) : (groups.mapM overlay).isSome := by
  induction groups with
  | nil => rfl
  | cons group groups ih =>
    rw [List.forall_mem_cons] at h
    obtain ⟨fields, hfields⟩ := Option.isSome_iff_exists.1 h.1
    obtain ⟨results, hresults⟩ := Option.isSome_iff_exists.1 (ih h.2)
    rw [List.mapM_cons, hfields, hresults]
    rfl

/-- All layers are compatible if those of each group are, and the results of the groups. -/
theorem allCompatible_groups {results : List (Fields α)}
    (hviews : results.map fieldsView = (groups.map fun group => fieldsView [] :: group.map fieldsView).map layered) :
    AllCompatible Option.isNone (groups.flatten.map fieldsView) ↔
      (∀ group ∈ groups, AllCompatible Option.isNone (group.map fieldsView)) ∧
        AllCompatible Option.isNone (results.map fieldsView) := by
  have hflatten := compatible_flatten Option.isNone (groups.map fun group => fieldsView [] :: group.map fieldsView)
  have hall : AllCompatible Option.isNone (groups.map fun group => fieldsView [] :: group.map fieldsView).flatten ↔
      AllCompatible Option.isNone (groups.flatten.map fieldsView) := by
    constructor
    · refine fun h => h.mono fun layer hlayer => ?_
      obtain ⟨fields, hfields, rfl⟩ := List.mem_map.1 hlayer
      obtain ⟨group, hgroup, hfields⟩ := List.mem_flatten.1 hfields
      exact List.mem_flatten_of_mem (List.mem_map_of_mem hgroup) (List.mem_cons_of_mem _ (List.mem_map_of_mem hfields))
    · refine fun h => ((allCompatible_bottom _).2 h).mono fun layer hlayer => ?_
      obtain ⟨_, hviews, hlayer⟩ := List.mem_flatten.1 hlayer
      obtain ⟨group, hgroup, rfl⟩ := List.mem_map.1 hviews
      rcases List.mem_cons.1 hlayer with rfl | hlayer
      · exact List.mem_cons_self ..
      · obtain ⟨fields, hfields, rfl⟩ := List.mem_map.1 hlayer
        exact List.mem_cons_of_mem _ (List.mem_map_of_mem (List.mem_flatten_of_mem hgroup hfields))
  rw [← hall, hflatten, hviews, List.forall_mem_map]
  refine and_congr_left fun _ => forall_congr' fun group => forall_congr' fun _ => allCompatible_bottom group

/-- **Overlaying is associative**: laying the overlays of groups of layers one over the other succeeds if laying all layers
does, with the same view. -/
theorem overlay_groups (groups : List (List (Fields α))) (hvalid : ∀ group ∈ groups, ∀ layer ∈ group, ValidFields layer) :
    ((groups.mapM overlay).bind overlay).map fieldsView = (overlay groups.flatten).map fieldsView := by
  have hvalidAll : ∀ layer ∈ groups.flatten, ValidFields layer := by
    intro layer hlayer
    obtain ⟨group, hgroup, hlayer⟩ := List.mem_flatten.1 hlayer
    exact hvalid group hgroup layer hlayer
  obtain ⟨hsome, hview⟩ := overlay_spec groups.flatten hvalidAll
  cases hmap : groups.mapM overlay with
  | none =>
    -- a group that has no result is among all layers
    cases hall : overlay groups.flatten with
    | none => rfl
    | some fields =>
      obtain ⟨hnull, hcompatible⟩ := hsome.1 (by rw [hall]; rfl)
      have hresults := exists_results fun group hgroup => (overlay_spec group (hvalid group hgroup)).1.2
        ⟨fun layer hlayer => hnull layer (List.mem_flatten_of_mem hgroup hlayer),
          hcompatible.mono (List.map_subset _ fun layer hlayer => List.mem_flatten_of_mem hgroup hlayer)⟩
      rw [hmap] at hresults
      cases hresults
  | some results =>
    obtain ⟨hviews, hresults, hgroups⟩ := views_of_groups hvalid hmap
    obtain ⟨hsome', hview'⟩ := overlay_spec results fun fields hfields => (hresults fields hfields).1
    have hspec := fun group hgroup => (overlay_spec group (hvalid group hgroup)).1.1 (hgroups group hgroup)
    have hiff : (overlay results).isSome ↔ (overlay groups.flatten).isSome := by
      rw [hsome, hsome', allCompatible_groups hviews]
      refine ⟨fun h => ⟨fun layer hlayer => ?_, fun group hgroup => (hspec group hgroup).2, h.2⟩,
        fun h => ⟨fun fields hfields => (hresults fields hfields).2, h.2.2⟩⟩
      obtain ⟨group, hgroup, hlayer⟩ := List.mem_flatten.1 hlayer
      exact (hspec group hgroup).1 layer hlayer
    rw [Option.bind_some]
    cases hall : overlay groups.flatten with
    | none =>
      rw [hall] at hiff
      rw [Option.not_isSome_iff_eq_none.1 fun h => Bool.false_ne_true (hiff.1 h)]
    | some fields =>
      rw [hall] at hiff
      obtain ⟨fields', hfields'⟩ := Option.isSome_iff_exists.1 (hiff.2 rfl)
      rw [hfields', Option.map_some, Option.map_some, Option.some.injEq]
      funext path
      cases path with
      | nil => rfl
      | cons key path =>
        rw [(hview' fields' hfields').2, (hview fields hall).2, hviews, layered_bottom, layered_bottom, List.map_map,
          List.map_flatten, layered_flatten, List.map_map]
        exact layered_congr fun group _ => layered_bottom _ key path

end GoEtl.Document
