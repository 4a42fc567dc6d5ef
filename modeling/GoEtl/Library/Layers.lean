import Mathlib.Data.List.Flatten

/-!
# Layers of partial functions

Partial functions laid one over the other: where several are defined, the last one counts. Values are of different kinds,
and layers are compatible if they have values of the same kind wherever two of them are defined.

Laying over is associative, for the values (`layered_flatten`) and for compatibility (`compatible_flatten`): to lay a list of
layers one over the other is to lay the results of its consecutive groups one over the other.
-/

namespace GoEtl.Library

variable {κ ν γ : Type*}

/-- The second function where it is defined, else the first. -/
def atop (below above : κ → Option ν) : κ → Option ν := fun k => (above k).or (below k)

/-- All layers, from the bottom to the top. -/
def layered : List (κ → Option ν) → κ → Option ν
  | [] => fun _ => none
  | layer :: layers => atop layer (layered layers)

/-- Where both functions are defined, the values are of the same kind. -/
def Compatible (kind : ν → γ) (a b : κ → Option ν) : Prop :=
  ∀ k x y, a k = some x → b k = some y → kind x = kind y

/-- All layers are compatible with each other. -/
def AllCompatible (kind : ν → γ) (layers : List (κ → Option ν)) : Prop :=
  ∀ a ∈ layers, ∀ b ∈ layers, Compatible kind a b

variable {kind : ν → γ}

theorem Compatible.symm {a b : κ → Option ν} (h : Compatible kind a b) : Compatible kind b a :=
  fun k x y hx hy => (h k y x hy hx).symm

theorem compatible_self (kind : ν → γ) (a : κ → Option ν) : Compatible kind a a := by
  intro k x y hx hy
  rw [hx] at hy
  cases hy
  rfl

theorem layered_append (below above : List (κ → Option ν)) :
    layered (below ++ above) = atop (layered below) (layered above) := by
  induction below with
  | nil =>
    funext k
    simp [layered, atop]
  | cons layer below ih =>
    funext k
    simp only [List.cons_append, layered, atop, ih, Option.or_assoc]

/-- **Laying over is associative.** -/
theorem layered_flatten (groups : List (List (κ → Option ν))) : layered groups.flatten = layered (groups.map layered) := by
  induction groups with
  | nil => rfl
  | cons group groups ih => rw [List.flatten_cons, layered_append, ih, List.map_cons, layered]

variable {layers : List (κ → Option ν)}

theorem layered_eq_none {k : κ} :
    layered layers k = none ↔ ∀ layer ∈ layers, layer k = none := by
  induction layers with
  | nil => simp [layered]
  | cons first layers ih => rw [layered, atop, Option.or_eq_none_iff, ih, List.forall_mem_cons, and_comm]

/-- The value of some layer, above which no layer has one. -/
theorem layered_eq_some {k : κ} {x : ν} :
    layered layers k = some x ↔
      ∃ below layer above, layers = below ++ layer :: above ∧ layer k = some x ∧ ∀ other ∈ above, other k = none := by
  induction layers with
  | nil => simp [layered]
  | cons first layers ih =>
    rw [layered, atop, Option.or_eq_some_iff, ih, layered_eq_none]
    constructor
    · rintro (⟨below, layer, above, rfl, hlayer, habove⟩ | ⟨hnone, hfirst⟩)
      · exact ⟨first :: below, layer, above, rfl, hlayer, habove⟩
      · exact ⟨[], first, layers, rfl, hfirst, hnone⟩
    · rintro ⟨below, layer, above, hlayers, hlayer, habove⟩
      cases below with
      | nil =>
        cases hlayers
        exact .inr ⟨habove, hlayer⟩
      | cons bottom below =>
        cases hlayers
        exact .inl ⟨below, layer, above, rfl, hlayer, habove⟩

/-- Only what the layers have there matters. -/
theorem layered_congr {ι : Type*} {f g : ι → κ → Option ν} {xs : List ι} {k : κ} (h : ∀ x ∈ xs, f x k = g x k) :
    layered (xs.map f) k = layered (xs.map g) k := by
  induction xs with
  | nil => rfl
  | cons x xs ih =>
    rw [List.forall_mem_cons] at h
    rw [List.map_cons, List.map_cons, layered, layered, atop, atop, ih h.2, h.1]

theorem AllCompatible.mono {layers' : List (κ → Option ν)} (h : AllCompatible kind layers') (hsubset : layers ⊆ layers')
    : AllCompatible kind layers :=
  fun a ha b hb => h a (hsubset ha) b (hsubset hb)

/-- Compatible layers have, where one is defined, a value of its kind. -/
theorem layered_of_mem (h : AllCompatible kind layers) {layer : κ → Option ν} (hlayer : layer ∈ layers) {k : κ} {x : ν}
    (hx : layer k = some x) :
    ∃ y, layered layers k = some y ∧ kind y = kind x := by
  cases hlayered : layered layers k with
  | some y =>
    obtain ⟨below, top, above, rfl, htop, _⟩ := layered_eq_some.1 hlayered
    exact ⟨y, rfl, h top (by simp) layer hlayer k y x htop hx⟩
  | none =>
    rw [layered_eq_none.1 hlayered layer hlayer] at hx
    cases hx

/-- **Compatibility is associative.** -/
theorem compatible_flatten (kind : ν → γ) (groups : List (List (κ → Option ν))) :
    AllCompatible kind groups.flatten ↔
      (∀ group ∈ groups, AllCompatible kind group) ∧ AllCompatible kind (groups.map layered) := by
  constructor
  · intro h
    refine ⟨fun group hgroup a ha b hb => h a (List.mem_flatten_of_mem hgroup ha) b (List.mem_flatten_of_mem hgroup hb), ?_⟩
    intro a ha b hb k x y hx hy
    obtain ⟨group, hgroup, rfl⟩ := List.mem_map.1 ha
    obtain ⟨group', hgroup', rfl⟩ := List.mem_map.1 hb
    obtain ⟨below, layer, above, rfl, hlayer, _⟩ := layered_eq_some.1 hx
    obtain ⟨below', layer', above', rfl, hlayer', _⟩ := layered_eq_some.1 hy
    exact h layer (List.mem_flatten_of_mem hgroup (by simp)) layer' (List.mem_flatten_of_mem hgroup' (by simp)) k x y
      hlayer hlayer'
  · rintro ⟨hgroups, hlayered⟩ a ha b hb k x y hx hy
    obtain ⟨group, hgroup, ha⟩ := List.mem_flatten.1 ha
    obtain ⟨group', hgroup', hb⟩ := List.mem_flatten.1 hb
    obtain ⟨x', hx', hkind⟩ := layered_of_mem (hgroups group hgroup) ha hx
    obtain ⟨y', hy', hkind'⟩ := layered_of_mem (hgroups group' hgroup') hb hy
    rw [← hkind, ← hkind']
    exact hlayered _ (List.mem_map_of_mem hgroup) _ (List.mem_map_of_mem hgroup') k x' y' hx' hy'

/-- One more layer on top of compatible ones. -/
theorem allCompatible_concat {top : κ → Option ν} :
    AllCompatible kind (layers ++ [top]) ↔ AllCompatible kind layers ∧ Compatible kind (layered layers) top := by
  have h := compatible_flatten kind [layers, [top]]
  have htop : layered [top] = top := by
    funext k
    simp [layered, atop]
  rw [List.flatten_cons, List.flatten_cons, List.flatten_nil, List.append_nil] at h
  rw [h]
  constructor
  · rintro ⟨hgroups, hboth⟩
    refine ⟨hgroups _ (List.mem_cons_self ..), ?_⟩
    have hpair := hboth (layered layers) (by simp) (layered [top]) (by simp)
    rwa [htop] at hpair
  · rintro ⟨hlayers, hboth⟩
    refine ⟨List.forall_mem_cons.2 ⟨hlayers, List.forall_mem_singleton.2 ?_⟩, ?_⟩
    · intro a ha b hb
      rw [List.mem_singleton.1 ha, List.mem_singleton.1 hb]
      exact compatible_self kind top
    · intro a ha b hb
      simp only [List.map_cons, List.map_nil, htop, List.mem_cons, List.not_mem_nil, or_false] at ha hb
      rcases ha with rfl | rfl <;> rcases hb with rfl | rfl
      · exact compatible_self kind _
      · exact hboth
      · exact hboth.symm
      · exact compatible_self kind _

end GoEtl.Library
