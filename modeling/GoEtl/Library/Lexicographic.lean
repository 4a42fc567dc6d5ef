import Mathlib.Data.List.Lex
import Mathlib.Order.Lattice

/-!
# The order of texts

Lists over a linear order, compared as texts are: at the first place where they differ, and a proper
beginning before what it begins. Two laws for records that are written as text:

* fields of a fixed width are compared one after the other (`append_lt_append_iff`);
* a field of any width is not, when something else follows it. If a terminator that is larger than
  every symbol follows, a proper beginning comes **after** what it begins
  (`terminated_lt_of_begins`), while two fields of which neither begins the other are compared as they
  would be on their own (`append_lt_append_of_differ`).
-/

namespace GoEtl.Library

variable {α : Type*} [LinearOrder α] {a b x y : List α} {z : α}

/-- Fields of the same width are compared first. -/
theorem append_lt_append_iff (h : a.length = b.length) :
    a ++ x < b ++ y ↔ a < b ∨ (a = b ∧ x < y) := by
  induction a generalizing b with
  | nil =>
    obtain rfl : b = [] := List.length_eq_zero_iff.1 h.symm
    simp
  | cons c a ih =>
    cases b with
    | nil => simp at h
    | cons d b =>
      have hlen : a.length = b.length := by simpa using h
      simp only [List.cons_append, List.cons_lt_cons_iff, ih hlen, List.cons_eq_cons]
      tauto

/-- Before a terminator that is larger than every symbol, a proper beginning comes last. -/
theorem terminated_lt_of_begins (hz : ∀ c ∈ b, c < z) (hab : a <+: b) (hne : a ≠ b) :
    b ++ z :: y < a ++ z :: x := by
  obtain ⟨rest, rfl⟩ := hab
  cases rest with
  | nil => simp at hne
  | cons c rest =>
    have hc : c < z := hz c (by simp)
    rw [List.append_assoc]
    exact List.append_left_lt (List.cons_lt_cons_iff.2 (.inl hc))

/-- Where neither field begins the other, what follows them does not matter. -/
theorem append_lt_append_of_differ (hab : ¬ a <+: b) (hba : ¬ b <+: a) :
    a ++ x < b ++ y ↔ a < b := by
  induction a generalizing b with
  | nil => exact absurd List.nil_prefix hab
  | cons c a ih =>
    cases b with
    | nil => exact absurd List.nil_prefix hba
    | cons d b =>
      rw [List.cons_append, List.cons_append, List.cons_lt_cons_iff, List.cons_lt_cons_iff]
      by_cases hcd : c = d
      · subst hcd
        rw [List.cons_prefix_cons] at hab hba
        rw [ih (fun h => hab ⟨rfl, h⟩) (fun h => hba ⟨rfl, h⟩)]
      · simp [hcd]

end GoEtl.Library
