import Mathlib.Data.List.Pairwise
import Mathlib.Data.List.Sort

/-!
# Maps as lists

A map is a list of names and values in which no name occurs twice. What a name stands for, and the list in the order of
the names, are the same for every order in which the map is walked.

A map that is kept in the order of its names is written with `putSorted`.
-/

namespace GoEtl.Library

section

variable {κ α : Type*} [BEq κ] [LawfulBEq κ] {fields fields' : List (κ × α)} {name : κ} {value : α}

/-- A name that does not occur has no value. -/
theorem lookup_of_not_mem (h : name ∉ fields.map Prod.fst) : fields.lookup name = none := by
  rw [List.lookup_eq_none_iff]
  intro field hfield
  rw [bne_iff_ne]
  rintro rfl
  exact h (List.mem_map_of_mem hfield)

theorem lookup_cons_ite [DecidableEq κ] (other : κ) (old : α) (rest : List (κ × α)) (name : κ) :
    ((other, old) :: rest).lookup name = if name = other then some old else rest.lookup name := by
  rw [List.lookup_cons]
  split <;> simp_all

theorem mem_of_lookup (h : fields.lookup name = some value) : (name, value) ∈ fields := by
  obtain ⟨before, after, rfl, _⟩ := List.lookup_eq_some_iff.1 h
  simp

/-- In a map a name stands for one value. -/
theorem lookup_iff_mem (hkeys : (fields.map Prod.fst).Nodup) :
    fields.lookup name = some value ↔ (name, value) ∈ fields := by
  refine ⟨mem_of_lookup, fun h => ?_⟩
  obtain ⟨before, after, rfl⟩ := List.append_of_mem h
  refine List.lookup_eq_some_iff.2 ⟨before, after, rfl, fun other hother => ?_⟩
  rw [List.map_append] at hkeys
  rw [bne_iff_ne]
  exact (List.nodup_append.1 hkeys).2.2 other.1 (List.mem_map_of_mem hother) name (List.mem_cons_self ..) |>.symm

/-- **The order of a map does not matter for what a name stands for.** -/
theorem lookup_perm (h : fields.Perm fields') (hkeys : (fields.map Prod.fst).Nodup)
    (name : κ) : fields.lookup name = fields'.lookup name := by
  have hkeys' : (fields'.map Prod.fst).Nodup := (h.map Prod.fst).nodup_iff.1 hkeys
  ext value
  rw [lookup_iff_mem hkeys, lookup_iff_mem hkeys', h.mem_iff]

end

section

variable {κ α : Type*} [LinearOrder κ] {fields fields' : List (κ × α)} {field : κ × α} {name : κ} {value : α}

instance total_fst : Std.Total fun a b : κ × α => a.1 ≤ b.1 := ⟨fun a b => le_total a.1 b.1⟩

instance isTrans_fst : IsTrans (κ × α) fun a b => a.1 ≤ b.1 := ⟨fun _ _ _ => le_trans⟩

/-- **The order of a map does not matter for its list in the order of the names.** -/
theorem insertionSort_perm (h : fields.Perm fields') (hkeys : (fields.map Prod.fst).Nodup) :
    fields.insertionSort (fun a b => a.1 ≤ b.1) = fields'.insertionSort fun a b => a.1 ≤ b.1 := by
  have hsort : ∀ l : List (κ × α), (l.insertionSort fun a b => a.1 ≤ b.1).Perm l := List.perm_insertionSort _
  refine ((hsort fields).trans (h.trans (hsort fields').symm)).eq_of_pairwise (fun a b ha hb hab hba => ?_)
    (List.pairwise_insertionSort _ _) (List.pairwise_insertionSort _ _)
  have ha' : a ∈ fields := (hsort fields).mem_iff.1 ha
  have hb' : b ∈ fields := h.mem_iff.2 ((hsort fields').mem_iff.1 hb)
  exact List.inj_on_of_nodup_map hkeys ha' hb' (le_antisymm hab hba)

/-! ### Maps in the order of their names -/

/-- The names are in order, each of them once. -/
def InOrder (fields : List (κ × α)) : Prop := fields.Pairwise fun a b => a.1 < b.1

theorem InOrder.nodup (h : InOrder fields) : (fields.map Prod.fst).Nodup :=
  List.pairwise_map.2 (h.imp fun hlt => ne_of_lt hlt)

/-- Write a value into a map that is in order. -/
def putSorted (name : κ) (value : α) : List (κ × α) → List (κ × α)
  | [] => [(name, value)]
  | (other, old) :: rest =>
    if name < other then (name, value) :: (other, old) :: rest
    else if name = other then (name, value) :: rest
    else (other, old) :: putSorted name value rest

/-- **What was written is read**, and the rest is read as before. -/
theorem lookup_putSorted [BEq κ] [LawfulBEq κ] (name : κ) (value : α) (fields : List (κ × α)) (asked : κ) :
    (putSorted name value fields).lookup asked = if asked = name then some value else fields.lookup asked := by
  fun_induction putSorted name value fields with
  | case1 => exact lookup_cons_ite name value [] asked
  | case2 other old rest hlt => exact lookup_cons_ite name value _ asked
  | case3 old rest hlt =>
    rw [lookup_cons_ite, lookup_cons_ite]
    split_ifs <;> rfl
  | case4 other old rest hlt hne ih =>
    rw [lookup_cons_ite, lookup_cons_ite, ih]
    split_ifs with hother hname
    · exact absurd (hname.symm.trans hother) hne
    all_goals rfl

theorem mem_putSorted (h : field ∈ putSorted name value fields) : field = (name, value) ∨ field ∈ fields := by
  fun_induction putSorted name value fields with
  | case1 => simpa using h
  | case2 other old rest hlt => simpa using h
  | case3 old rest hlt =>
    rcases List.mem_cons.1 h with rfl | h
    · exact .inl rfl
    · exact .inr (List.mem_cons_of_mem _ h)
  | case4 other old rest hlt hne ih =>
    rcases List.mem_cons.1 h with rfl | h
    · exact .inr (List.mem_cons_self ..)
    · exact (ih h).imp_right (List.mem_cons_of_mem _)

/-- The map stays in order. -/
theorem inOrder_putSorted (h : InOrder fields) (name : κ) (value : α) :
    InOrder (putSorted name value fields) := by
  fun_induction putSorted name value fields with
  | case1 => exact List.pairwise_singleton _ _
  | case2 other old rest hlt =>
    refine .cons (fun field hfield => ?_) h
    rcases List.mem_cons.1 hfield with rfl | hfield
    · exact hlt
    · exact hlt.trans (List.rel_of_pairwise_cons h hfield)
  | case3 old rest hlt =>
    exact .cons (fun field hfield => List.rel_of_pairwise_cons h hfield) h.of_cons
  | case4 other old rest hlt hne ih =>
    refine .cons (fun field hfield => ?_) (ih h.of_cons)
    rcases mem_putSorted hfield with rfl | hfield
    · exact lt_of_le_of_ne (not_lt.1 hlt) (Ne.symm hne)
    · exact List.rel_of_pairwise_cons h hfield

/-- What is in a map after writing: the new value, and what other names stand for. -/
theorem InOrder.mem_put (horder : InOrder fields) (h : field ∈ putSorted name value fields) :
    field = (name, value) ∨ field ∈ fields ∧ field.1 ≠ name := by
  obtain ⟨asked, found⟩ := field
  rw [← lookup_iff_mem (inOrder_putSorted horder name value).nodup, lookup_putSorted] at h
  split_ifs at h with hname
  · cases h
    exact .inl (by rw [hname])
  · exact .inr ⟨mem_of_lookup h, hname⟩

/-- A relation of all the fields is one of all the fields after writing, if the new value is in it. -/
theorem pairwise_putSorted {R : κ × α → κ × α → Prop} (hsymm : ∀ a b, R a b → R b a) (horder : InOrder fields)
    (h : fields.Pairwise R) (hnew : ∀ field ∈ fields, field.1 ≠ name → R (name, value) field) :
    (putSorted name value fields).Pairwise R := by
  have : Std.Symm R := ⟨hsymm⟩
  refine ((inOrder_putSorted horder name value).nodup.of_map _).pairwise_of_forall_ne fun a ha b hb hne => ?_
  rcases horder.mem_put ha with rfl | ⟨ha, hname⟩
  · rcases horder.mem_put hb with rfl | ⟨hb, hname⟩
    · exact absurd rfl hne
    · exact hnew b hb hname
  · rcases horder.mem_put hb with rfl | ⟨hb, _⟩
    · exact hsymm _ _ (hnew a ha hname)
    · exact h.forall ha hb hne

/-- Writing what is there changes nothing. -/
theorem InOrder.put_same [BEq κ] [LawfulBEq κ] (horder : InOrder fields) (h : fields.lookup name = some value) : putSorted name value fields = fields := by
  fun_induction putSorted name value fields with
  | case1 => cases h
  | case2 other old rest hlt =>
    exfalso
    rcases List.mem_cons.1 (mem_of_lookup h) with heq | hmem
    · exact absurd (congrArg Prod.fst heq) (ne_of_lt hlt)
    · exact absurd (hlt.trans (List.rel_of_pairwise_cons horder hmem)) (lt_irrefl _)
  | case3 old rest hlt =>
    rw [lookup_cons_ite, if_pos rfl] at h
    cases h
    rfl
  | case4 other old rest hlt hne ih =>
    rw [lookup_cons_ite, if_neg hne] at h
    rw [ih horder.of_cons h]

section

variable {β : Type*} (f : α → β) (fields : List (κ × α)) (name : κ)

/-- What a name stands for in a map whose values were mapped. -/
theorem lookup_map_values [BEq κ] [LawfulBEq κ] : (fields.map (Prod.map id f)).lookup name = (fields.lookup name).map f := by
  induction fields with
  | nil => rfl
  | cons field rest ih =>
    obtain ⟨other, old⟩ := field
    rw [List.map_cons, Prod.map_apply, id, lookup_cons_ite, ih, lookup_cons_ite]
    split_ifs <;> rfl

/-- Writing and mapping the values commute. -/
theorem map_putSorted (value : α) :
    (putSorted name value fields).map (Prod.map id f) = putSorted name (f value) (fields.map (Prod.map id f)) := by
  fun_induction putSorted name value fields with
  | case1 => rfl
  | case2 other old rest hlt => simp [putSorted, hlt]
  | case3 old rest hlt => simp [putSorted]
  | case4 other old rest hlt hne ih => simp [putSorted, hlt, hne, ih]

end

end

end GoEtl.Library
