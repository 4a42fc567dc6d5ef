import Mathlib.Algebra.Order.Ring.Int

/-!
# Resource constraints

`internal/model/resource_constraint.go`: a work item asks for units of a resource and
compares what would then be in use with a target. Units are 64-bit integers; an addition
that leaves their range is an error, never a wrapped value.

## What is proved

`checkedAdd_ok`: the checked addition is the integer sum, and fails exactly when the sum
leaves the 64-bit range. `resourceConstraintAllows_ok` reads a check as a comparison of
integers, and `resourceConstraintChecksAllow_true` a list of checks as a conjunction.
-/

namespace GoEtl.Model

/-- `ResourceOperator`: the six comparisons, and any other text a row could hold. -/
inductive ResourceOperator where
  /-- The text `=`. -/
  | equal
  /-- The text `!=`. -/
  | notEqual
  /-- The text `<`. -/
  | lessThan
  /-- The text `>`. -/
  | greaterThan
  /-- The text `<=`. -/
  | lessThanOrEqual
  /-- The text `>=`. -/
  | greaterThanOrEqual
  /-- A text that is not an operator. -/
  | unsupported (text : String)
  deriving DecidableEq, Repr

/-- `isSupportedWorkItemResourceConstraintOperator`. -/
def ResourceOperator.isSupported : ResourceOperator → Bool
  | .unsupported _ => false
  | _ => true

/-- `checkedAdd`. -/
def checkedAdd (left right : Int64) : Except String Int64 :=
  if (0 < right && Int64.maxValue - right < left) || (right < 0 && left < Int64.minValue - right) then
    .error ("resource units overflow: " ++ toString left.toInt ++ " + " ++ toString right.toInt)
  else .ok (left + right)

/-- `ResourceConstraintAllows`. -/
def resourceConstraintAllows (totalUnits requestedUnits : Int64) (operator : ResourceOperator)
    (targetUnits : Int64) : Except String Bool := do
  let candidateTotal ← checkedAdd totalUnits requestedUnits
  match operator with
  | .equal => return candidateTotal == targetUnits
  | .notEqual => return candidateTotal != targetUnits
  | .lessThan => return decide (candidateTotal < targetUnits)
  | .greaterThan => return decide (targetUnits < candidateTotal)
  | .lessThanOrEqual => return decide (candidateTotal ≤ targetUnits)
  | .greaterThanOrEqual => return decide (targetUnits ≤ candidateTotal)
  | .unsupported text => throw ("unsupported resource operator \"" ++ text ++ "\"")

/-- `ResourceConstraintCheck`. -/
structure ResourceConstraintCheck where
  /-- The units in use. -/
  totalUnits : Int64
  /-- The units the candidate asks for. -/
  requestedUnits : Int64
  /-- The comparison. -/
  operator : ResourceOperator
  /-- What the comparison is with. -/
  targetUnits : Int64
  deriving DecidableEq

/-- One check. -/
def ResourceConstraintCheck.allows (check : ResourceConstraintCheck) : Except String Bool :=
  resourceConstraintAllows check.totalUnits check.requestedUnits check.operator check.targetUnits

/-- The loop of `ResourceConstraintChecksAllow`, from a check's index on. -/
def resourceConstraintChecksAllowFrom (index : ℕ) :
    List ResourceConstraintCheck → Except String Bool
  | [] => .ok true
  | check :: checks =>
    match check.allows with
    | .error e => .error ("resource constraint check " ++ toString index ++ ": " ++ e)
    | .ok false => .ok false
    | .ok true => resourceConstraintChecksAllowFrom (index + 1) checks

/-- `ResourceConstraintChecksAllow`. -/
def resourceConstraintChecksAllow (checks : List ResourceConstraintCheck) : Except String Bool :=
  resourceConstraintChecksAllowFrom 0 checks

/-! ### Checked addition is addition -/

/-- The integers that fit in 64 bits. -/
def InRange (n : ℤ) : Prop := -2 ^ 63 ≤ n ∧ n < 2 ^ 63

instance (n : ℤ) : Decidable (InRange n) := inferInstanceAs (Decidable (_ ∧ _))

theorem inRange_toInt (x : Int64) : InRange x.toInt := ⟨x.le_toInt, x.toInt_lt⟩

theorem toInt_sub_of_inRange {a b : Int64} (h : InRange (a.toInt - b.toInt)) :
    (a - b).toInt = a.toInt - b.toInt := by
  rw [Int64.toInt_sub, Int.bmod_eq_of_le] <;> unfold InRange at h <;> omega

theorem toInt_add_of_inRange {a b : Int64} (h : InRange (a.toInt + b.toInt)) :
    (a + b).toInt = a.toInt + b.toInt := by
  rw [Int64.toInt_add, Int.bmod_eq_of_le] <;> unfold InRange at h <;> omega

/-- The two guards of the source are the two ways out of the range. -/
theorem overflow_guard (left right : Int64) :
    ((0 < right && Int64.maxValue - right < left) || (right < 0 && left < Int64.minValue - right)) =
      true ↔ ¬ InRange (left.toInt + right.toInt) := by
  have hl := inRange_toInt left
  have hr := inRange_toInt right
  have hmax := Int64.toInt_maxValue
  have hmin := Int64.toInt_minValue
  simp only [Bool.or_eq_true, Bool.and_eq_true, decide_eq_true_eq, Int64.lt_iff_toInt_lt,
    Int64.toInt_zero]
  unfold InRange at hl hr ⊢
  rcases lt_trichotomy right.toInt 0 with h | h | h
  · rw [toInt_sub_of_inRange (a := Int64.minValue) (by unfold InRange; omega)]
    omega
  · omega
  · rw [toInt_sub_of_inRange (a := Int64.maxValue) (by unfold InRange; omega)]
    omega

/-- **The checked addition is the integer sum**, and succeeds exactly when the sum fits. -/
theorem checkedAdd_ok {left right sum : Int64} :
    checkedAdd left right = .ok sum ↔ sum.toInt = left.toInt + right.toInt := by
  unfold checkedAdd
  split
  · rename_i h
    have hout := (overflow_guard left right).1 h
    simp only [reduceCtorEq, false_iff]
    intro hsum
    exact hout (hsum ▸ inRange_toInt sum)
  · rename_i h
    have hin : InRange (left.toInt + right.toInt) := by
      by_contra hout
      exact h ((overflow_guard left right).2 hout)
    rw [Except.ok.injEq, ← toInt_add_of_inRange hin, Int64.toInt_inj, eq_comm]

theorem exists_checkedAdd {left right : Int64} (h : InRange (left.toInt + right.toInt)) :
    ∃ sum, checkedAdd left right = .ok sum :=
  ⟨left + right, checkedAdd_ok.2 (toInt_add_of_inRange h)⟩

/-! ### Checks as comparisons -/

/-- What an operator says of two integers; an unsupported one says nothing. -/
def ResourceOperator.Holds (operator : ResourceOperator) (total target : ℤ) : Prop :=
  match operator with
  | .equal => total = target
  | .notEqual => total ≠ target
  | .lessThan => total < target
  | .greaterThan => target < total
  | .lessThanOrEqual => total ≤ target
  | .greaterThanOrEqual => target ≤ total
  | .unsupported _ => False

instance (operator : ResourceOperator) (total target : ℤ) : Decidable (operator.Holds total target) := by
  cases operator <;> unfold ResourceOperator.Holds <;> infer_instance

/-- A check that answers has compared the integer sum with the target. -/
theorem resourceConstraintAllows_ok {total requested target : Int64} {operator : ResourceOperator}
    {b : Bool} (h : resourceConstraintAllows total requested operator target = .ok b) :
    InRange (total.toInt + requested.toInt) ∧
      (b = true ↔ operator.Holds (total.toInt + requested.toInt) target.toInt) := by
  unfold resourceConstraintAllows at h
  cases hsum : checkedAdd total requested with
  | error e =>
    rw [hsum] at h
    cases h
  | ok sum =>
    have hvalue := checkedAdd_ok.1 hsum
    refine ⟨hvalue ▸ inRange_toInt sum, ?_⟩
    rw [hsum] at h
    cases operator <;> cases h <;>
      simp [ResourceOperator.Holds, ← hvalue, Int64.lt_iff_toInt_lt, Int64.le_iff_toInt_le, Int64.toInt_inj]

/-- A supported operator answers whenever the sum fits. -/
theorem exists_resourceConstraintAllows {total requested target : Int64} {operator : ResourceOperator}
    (hop : operator.isSupported = true) (h : InRange (total.toInt + requested.toInt)) :
    ∃ b, resourceConstraintAllows total requested operator target = .ok b := by
  obtain ⟨sum, hsum⟩ := exists_checkedAdd h
  unfold resourceConstraintAllows
  rw [hsum]
  cases operator
  case unsupported => cases hop
  all_goals exact ⟨_, rfl⟩

variable {checks : List ResourceConstraintCheck}

/-- **A list of checks is their conjunction.** -/
theorem resourceConstraintChecksAllowFrom_true {index : ℕ} :
    resourceConstraintChecksAllowFrom index checks = .ok true ↔
      ∀ check ∈ checks, check.allows = .ok true := by
  induction checks generalizing index with
  | nil => simp [resourceConstraintChecksAllowFrom]
  | cons check checks ih =>
    unfold resourceConstraintChecksAllowFrom
    rw [List.forall_mem_cons]
    split <;> simp_all

theorem resourceConstraintChecksAllow_true :
    resourceConstraintChecksAllow checks = .ok true ↔ ∀ check ∈ checks, check.allows = .ok true :=
  resourceConstraintChecksAllowFrom_true

/-- A list of checks that all answer has an answer. -/
theorem resourceConstraintChecksAllowFrom_of_answers {index : ℕ}
    (h : ∀ check ∈ checks, ∃ b, check.allows = .ok b) :
    ∃ b, resourceConstraintChecksAllowFrom index checks = .ok b := by
  induction checks generalizing index with
  | nil => exact ⟨true, rfl⟩
  | cons check checks ih =>
    obtain ⟨b, hb⟩ := h check List.mem_cons_self
    unfold resourceConstraintChecksAllowFrom
    rw [hb]
    cases b
    · exact ⟨false, rfl⟩
    · exact ih fun c hc => h c (List.mem_cons_of_mem check hc)

end GoEtl.Model
