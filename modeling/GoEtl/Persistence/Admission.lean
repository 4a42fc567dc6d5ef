import GoEtl.Persistence.Claim

/-!
# What the resource check says

`queuedResourceConstraintsAllow` reads the checks of a queued item from the view and evaluates them in
64-bit arithmetic. Here it is read as a statement about integers: the item is allowed exactly when the
units in use fit in 64 bits, with and without the request, and every constraint holds of the sum
(`queuedResourceConstraintsAllow_true`). It answers, yes or no, as soon as all the sums fit
(`queuedResourceConstraintsAllow_answers`).
-/

namespace GoEtl.Persistence

open Library Model

/-- The constraint, with what is in use, is within the 64-bit range and holds. -/
def Admits (db : Store) (c : WorkItemResourceConstraintRecord) : Prop :=
  InRange (runningUnits db c.resourceKey) ∧
    InRange (runningUnits db c.resourceKey + c.requestedUnits.toInt) ∧
    c.operator.Holds (runningUnits db c.resourceKey + c.requestedUnits.toInt) c.targetUnits.toInt

instance (db : Store) (c : WorkItemResourceConstraintRecord) : Decidable (Admits db c) :=
  inferInstanceAs (Decidable (_ ∧ _ ∧ _))

variable {db : Store} {w : String}

theorem totalUnits_ok {key : String} {total : Int64} :
    totalUnits db key = .ok total ↔ InRange (runningUnits db key) ∧ total.toInt = runningUnits db key := by
  unfold totalUnits
  split
  · rename_i h
    have hvalue : (Int64.ofInt (runningUnits db key)).toInt = runningUnits db key :=
      Int64.toInt_ofInt_of_le h.1 h.2
    rw [Except.ok.injEq, ← Int64.toInt_inj, hvalue]
    simp [h, eq_comm]
  · rename_i h
    simp [h]

theorem exists_totalUnits {key : String} (h : InRange (runningUnits db key)) :
    ∃ total, totalUnits db key = .ok total ∧ total.toInt = runningUnits db key := by
  have hvalue : (Int64.ofInt (runningUnits db key)).toInt = runningUnits db key :=
    Int64.toInt_ofInt_of_le h.1 h.2
  exact ⟨_, totalUnits_ok.2 ⟨h, hvalue⟩, hvalue⟩

variable {c : WorkItemResourceConstraintRecord}

theorem constraintCheck_ok {check : ResourceConstraintCheck} :
    constraintCheck db c = .ok check ↔ ∃ total, totalUnits db c.resourceKey = .ok total ∧
      check = ⟨total, c.requestedUnits, c.operator, c.targetUnits⟩ := by
  unfold constraintCheck
  split
  · rename_i h
    simp [h]
  · rename_i h
    simp [h, eq_comm]

/-- A constraint admits the item exactly when its check answers yes. -/
theorem admits_iff :
    Admits db c ↔ ∃ check, constraintCheck db c = .ok check ∧ check.allows = .ok true := by
  constructor
  · rintro ⟨hrange, hsum, hholds⟩
    obtain ⟨total, htotal, hvalue⟩ := exists_totalUnits hrange
    refine ⟨_, constraintCheck_ok.2 ⟨_, htotal, rfl⟩, ?_⟩
    have hsupported : c.operator.isSupported = true := by
      cases hop : c.operator <;> first | rfl | (rw [hop] at hholds; exact hholds.elim)
    obtain ⟨b, hb⟩ : ∃ b, resourceConstraintAllows total c.requestedUnits c.operator c.targetUnits = .ok b :=
      exists_resourceConstraintAllows hsupported (hvalue ▸ hsum)
    have hanswer := (resourceConstraintAllows_ok hb).2
    rw [hvalue] at hanswer
    rw [ResourceConstraintCheck.allows, hb, hanswer.2 hholds]
  · rintro ⟨check, hcheck, hallows⟩
    obtain ⟨total, htotal, rfl⟩ := constraintCheck_ok.1 hcheck
    obtain ⟨hrange, hvalue⟩ := totalUnits_ok.1 htotal
    have h := resourceConstraintAllows_ok hallows
    rw [hvalue] at h
    exact ⟨hrange, h.1, h.2.1 rfl⟩

/-- The constraints of an item in the order of the view. -/
theorem mem_constraints_of_item :
    c ∈ (db.resourceConstraints.rows.filter (·.workItemId == w)).insertionSort
      (·.constraintIndex ≤ ·.constraintIndex) ↔ c ∈ db.resourceConstraints ∧ c.workItemId = w := by
  rw [List.mem_insertionSort, List.mem_filter, beq_iff_eq]
  rfl

/-- **An item is allowed exactly when all its constraints admit it.** -/
theorem queuedResourceConstraintsAllow_true :
    queuedResourceConstraintsAllow db w = .ok true ↔
      ∀ c ∈ db.resourceConstraints, c.workItemId = w → Admits db c := by
  have hlist : (∃ checks, listQueuedResourceConstraintChecksForWorkItem db w = .ok checks ∧
      resourceConstraintChecksAllow checks = .ok true) ↔
        ∀ c ∈ db.resourceConstraints, c.workItemId = w → Admits db c := by
    constructor
    · rintro ⟨checks, hchecks, hallow⟩ c hc hw
      rw [resourceConstraintChecksAllow_true, mapM_forall hchecks] at hallow
      exact admits_iff.2 (hallow c (mem_constraints_of_item.2 ⟨hc, hw⟩))
    · intro h
      have hround : ∀ c ∈ (db.resourceConstraints.rows.filter (·.workItemId == w)).insertionSort
          (·.constraintIndex ≤ ·.constraintIndex),
          ∃ check, constraintCheck db c = .ok check ∧ check.allows = .ok true := by
        intro c hc
        obtain ⟨hmem, hw⟩ := mem_constraints_of_item.1 hc
        exact admits_iff.1 (h c hmem hw)
      obtain ⟨checks, hchecks⟩ := exists_mapM fun c hc => (hround c hc).imp fun _ hcheck => hcheck.1
      refine ⟨checks, hchecks, ?_⟩
      rw [resourceConstraintChecksAllow_true, mapM_forall hchecks]
      exact hround
  rw [← hlist, queuedResourceConstraintsAllow]
  cases hchecks : listQueuedResourceConstraintChecksForWorkItem db w with
  | error v => simp
  | ok checks =>
    cases hallow : resourceConstraintChecksAllow checks with
    | error e => simp [hallow]
    | ok b => simp [hallow]

/-- The units in use of the item's resources fit in 64 bits, with and without its request. -/
def UnitsFit (db : Store) (w : String) : Prop :=
  ∀ c ∈ db.resourceConstraints, c.workItemId = w →
    InRange (runningUnits db c.resourceKey) ∧
      InRange (runningUnits db c.resourceKey + c.requestedUnits.toInt)

instance (db : Store) (w : String) : Decidable (UnitsFit db w) :=
  inferInstanceAs (Decidable (∀ c ∈ db.resourceConstraints.rows, c.workItemId = w → _))

/-- The check of a constraint whose sums fit has an answer. -/
theorem UnitsFit.check_answers (h : UnitsFit db w) (hc : c ∈ db.resourceConstraints) (hw : c.workItemId = w) :
    ∃ check, constraintCheck db c = .ok check ∧ ∃ b, check.allows = .ok b := by
  obtain ⟨hrange, hsum⟩ := h c hc hw
  obtain ⟨total, htotal, hvalue⟩ := exists_totalUnits hrange
  have hcheck := Table.check_of_mem hc
  simp only [Schema.resourceConstraints, Schema.unique_check, Schema.keyed_check, Bool.and_eq_true] at hcheck
  exact ⟨_, constraintCheck_ok.2 ⟨_, htotal, rfl⟩, exists_resourceConstraintAllows hcheck.2 (hvalue ▸ hsum)⟩

/-- The check of an item whose sums fit has an answer. -/
theorem queuedResourceConstraintsAllow_answers (h : UnitsFit db w) :
    ∃ b, queuedResourceConstraintsAllow db w = .ok b := by
  have hround : ∀ c ∈ (db.resourceConstraints.rows.filter (·.workItemId == w)).insertionSort
      (·.constraintIndex ≤ ·.constraintIndex),
      ∃ check, constraintCheck db c = .ok check ∧ ∃ b, check.allows = .ok b := by
    intro c hc
    obtain ⟨hmem, hw⟩ := mem_constraints_of_item.1 hc
    exact h.check_answers hmem hw
  obtain ⟨checks, hchecks⟩ := exists_mapM fun c hc => (hround c hc).imp fun _ hcheck => hcheck.1
  have hanswers := (mapM_forall hchecks).2 hround
  obtain ⟨b, hb⟩ : ∃ b, resourceConstraintChecksAllow checks = .ok b :=
    resourceConstraintChecksAllowFrom_of_answers hanswers
  refine ⟨b, ?_⟩
  have hlist : listQueuedResourceConstraintChecksForWorkItem db w = .ok checks := hchecks
  rw [queuedResourceConstraintsAllow, hlist]
  simp only [hb]

end GoEtl.Persistence
