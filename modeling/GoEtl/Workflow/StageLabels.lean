import Mathlib.Data.List.Nodup
import GoEtl.Library.Transaction
import GoEtl.Workflow.Stages

/-!
# Which workflows have stages, and which steps share one

The loop of `NormalizeStages` carries the label of the open stage, the labels that were left and the ids that were seen.
What they are after any number of steps is an invariant of the loop (`Normalized`), and from it follow when a workflow is
accepted and which of its steps share a stage: **`normalizeStages_correct`**.
-/

namespace GoEtl.Workflow

open Library Text

/-- The label of a step, which is empty if the step has none. -/
def Step.label (step : Step) : String := trimSpace step.parallelWith

/-! ### Blocks -/

/-- Every label that is not blank occupies one block. -/
def Contiguous (labels : List String) : Prop :=
  ∀ (i j k : ℕ) label, i < j → j < k → label ≠ "" → labels[i]? = some label → labels[k]? = some label →
    labels[j]? = some label

theorem contiguous_nil : Contiguous [] := fun _ _ _ _ _ _ _ hi => by simp at hi

variable {labels : List String} {label : String}

theorem Contiguous.of_append {more : List String} (h : Contiguous (labels ++ more)) : Contiguous labels := by
  intro i j k label hij hjk hlabel hi hk
  have hk' : k < labels.length := (List.getElem?_eq_some_iff.1 hk).1
  have hj := h i j k label hij hjk hlabel (by rw [List.getElem?_append_left (by omega), hi])
    (by rw [List.getElem?_append_left hk', hk])
  rwa [List.getElem?_append_left (by omega)] at hj

/-- **One label more**: it is blank, or new, or that of the open block. -/
theorem contiguous_concat : Contiguous (labels ++ [label]) ↔
    Contiguous labels ∧ (label = "" ∨ label ∉ labels ∨ labels.getLast? = some label) := by
  constructor
  · intro h
    refine ⟨h.of_append, ?_⟩
    by_cases hblank : label = ""
    · exact .inl hblank
    by_cases hold : label ∈ labels
    · obtain ⟨i, hi, hlabel⟩ := List.getElem_of_mem hold
      refine .inr (.inr ?_)
      rw [List.getLast?_eq_getElem?]
      by_cases hlast : i = labels.length - 1
      · rw [← hlast, List.getElem?_eq_getElem hi, hlabel]
      · have hj := h i (labels.length - 1) labels.length label (by omega) (by omega) hblank
          (by rw [List.getElem?_append_left hi, List.getElem?_eq_getElem hi, hlabel]) (by simp)
        rwa [List.getElem?_append_left (by omega)] at hj
    · exact .inr (.inl hold)
  · rintro ⟨h, hnew⟩ i j k other hij hjk hother hi hk
    have hlast : k ≤ labels.length := by
      have hlength := (List.getElem?_eq_some_iff.1 hk).1
      simp at hlength
      omega
    rw [List.getElem?_append_left (by omega)] at hi
    rw [List.getElem?_append_left (by omega)]
    rcases Nat.lt_or_eq_of_le hlast with hlt | rfl
    · rw [List.getElem?_append_left hlt] at hk
      exact h i j k other hij hjk hother hi hk
    · -- the last label is the new one, and it has been there
      obtain rfl : label = other := by simpa using hk
      have hmem : label ∈ labels := List.mem_of_getElem? hi
      have hopen : labels[labels.length - 1]? = some label := by
        rw [← List.getLast?_eq_getElem?]
        exact (hnew.resolve_left hother).resolve_left (not_not_intro hmem)
      by_cases hj : j = labels.length - 1
      · rw [hj, hopen]
      · exact h i j (labels.length - 1) label hij (by omega) hother hi hopen

/-! ### The loop -/

/-- Two steps with their places share a stage exactly when they have the same label. -/
def Shares (a b : StageStep × Step) : Prop :=
  a.1.stageIndex = b.1.stageIndex ↔ a.2.label = b.2.label ∧ a.2.label ≠ ""

/-- What the variables of the loop are after some steps. -/
structure Normalized (steps : List Step) (st : Normalizing) : Prop where
  staged : Staged steps st.stages
  shares : ((stageSteps st.stages).zip steps).Pairwise Shares
  open_label : st.label = (steps.getLast?.map Step.label).getD ""
  closed : ∀ label, label ∈ st.closed ↔ label ≠ "" ∧ label ≠ st.label ∧ label ∈ steps.map Step.label
  seen : ∀ id, id ∈ st.seen ↔ id ∈ steps.map (·.id)

theorem normalized_nil : Normalized [] ⟨[], "", [], []⟩ where
  staged := ⟨rfl, by simp, by simp, rfl, rfl⟩
  shares := .nil
  open_label := rfl
  closed := by simp
  seen := by simp

section

variable {steps : List Step} {step : Step} {st st' : Normalizing}

theorem Staged.length_eq {stages : List Stage} (h : Staged steps stages) : (stageSteps stages).length = steps.length := by
  have hids := congrArg List.length h.stepId
  simpa using hids

/-- The stages of the steps so far have smaller indexes than a new one. -/
theorem Staged.stageIndex_lt {stages : List Stage} (h : Staged steps stages) {t : StageStep} (ht : t ∈ stageSteps stages) :
    t.stageIndex < stages.length := by
  obtain ⟨s, hs, ht⟩ := List.mem_flatMap.1 ht
  obtain ⟨n, hn, rfl⟩ := List.getElem_of_mem hs
  rw [h.stage _ hs t ht]
  have hindex : (stages.get ⟨n, hn⟩).index = n := h.getElem_index hn
  show (stages.get ⟨n, hn⟩).index < stages.length
  rw [hindex]
  exact_mod_cast hn

theorem stageSteps_concat (stages : List Stage) (stage : Stage) :
    stageSteps (stages ++ [stage]) = stageSteps stages ++ stage.steps := by
  simp [stageSteps]

/-- Another step shares its stage with those it has its label in common with. -/
theorem shares_concat {ts : List StageStep} {t : StageStep} (hlength : ts.length = steps.length)
    (h : (ts.zip steps).Pairwise Shares) (hnew : ∀ a ∈ ts.zip steps, Shares a (t, step)) :
    ((ts ++ [t]).zip (steps ++ [step])).Pairwise Shares := by
  rw [List.zip_append hlength]
  refine List.pairwise_append.2 ⟨h, List.pairwise_singleton _ _, fun a ha b hb => ?_⟩
  obtain rfl : b = (t, step) := by simpa using hb
  exact hnew a ha

/-- The open label is that of the last step. -/
theorem Normalized.getLast_label (h : Normalized steps st) (hlabel : label ≠ "") :
    (steps.map Step.label).getLast? = some label ↔ st.label = label := by
  rw [h.open_label, List.getLast?_map]
  cases steps.getLast? with
  | none => simp [hlabel.symm]
  | some last => simp

/-- A label that is neither closed nor open is new. -/
theorem Normalized.not_closed (h : Normalized steps st) (hlabel : label ≠ "") :
    label ∉ st.closed ↔ label ∉ steps.map Step.label ∨ (steps.map Step.label).getLast? = some label := by
  rw [h.closed, h.getLast_label hlabel]
  by_cases hopen : st.label = label
  · simp [hopen]
  · simp [hlabel, hopen, Ne.symm hopen]

/-- What a round can do: open a stage for a step without label, add the step to the open stage, or open a stage for a
label. -/
theorem normalizeStep_ok {index : ℕ} : normalizeStep st index step = .ok st' ↔ step.id ∉ st.seen ∧
    (step.label = "" ∧ st' = ⟨st.opened index step "", "", st.close, step.id :: st.seen⟩ ∨
      step.label ≠ "" ∧ step.label ∉ st.closed ∧
        (step.label = st.label ∧ st.stages ≠ [] ∧
            st' = { st with stages := addToLast step.label index step.id st.stages, seen := step.id :: st.seen } ∨
          ¬(step.label = st.label ∧ st.stages ≠ []) ∧
            st' = ⟨st.opened index step step.label, step.label, st.close, step.id :: st.seen⟩)) := by
  have hround : normalizeStep st index step =
      if st.seen.contains step.id then .error ("duplicate workflow step id: " ++ step.id)
      else if step.label = "" then .ok ⟨st.opened index step "", "", st.close, step.id :: st.seen⟩
      else if st.closed.contains step.label then .error ("workflow parallel_with label reused after close: " ++ step.label)
      else if step.label = st.label ∧ st.stages ≠ [] then
        .ok { st with stages := addToLast step.label index step.id st.stages, seen := step.id :: st.seen }
      else .ok ⟨st.opened index step step.label, step.label, st.close, step.id :: st.seen⟩ := rfl
  rw [hround, ← List.contains_iff_mem, ← List.contains_iff_mem]
  split_ifs with hseen hblank hclosed hopen
  · exact iff_of_false nofun fun h => h.1 hseen
  · rw [and_iff_right hseen, or_iff_left fun h => h.1 hblank, and_iff_right hblank, Except.ok.injEq, eq_comm]
  · exact iff_of_false nofun fun h => h.2.elim (fun h => hblank h.1) fun h => h.2.1 hclosed
  all_goals rw [and_iff_right hseen, or_iff_right fun h => hblank h.1, and_iff_right hblank, and_iff_right hclosed]
  · rw [or_iff_left fun h => h.1 hopen, and_iff_right hopen.1, and_iff_right hopen.2, Except.ok.injEq, eq_comm]
  · rw [or_iff_right fun h => hopen ⟨h.1, h.2.1⟩, and_iff_right hopen, Except.ok.injEq, eq_comm]

/-- **When a round succeeds.** -/
theorem Normalized.round_iff (h : Normalized steps st) (index : ℕ) :
    (∃ st', normalizeStep st index step = .ok st') ↔ step.id ∉ steps.map (·.id) ∧
      (step.label = "" ∨ step.label ∉ steps.map Step.label ∨ (steps.map Step.label).getLast? = some step.label) := by
  rw [← h.seen]
  constructor
  · rintro ⟨st', hround⟩
    obtain ⟨hid, hcases⟩ := normalizeStep_ok.1 hround
    refine ⟨hid, ?_⟩
    rcases hcases with ⟨hblank, _⟩ | ⟨hlabel, hclosed, _⟩
    · exact .inl hblank
    · exact .inr ((h.not_closed hlabel).1 hclosed)
  · rintro ⟨hid, hlabel⟩
    by_cases hblank : step.label = ""
    · exact ⟨_, normalizeStep_ok.2 ⟨hid, .inl ⟨hblank, rfl⟩⟩⟩
    have hclosed := (h.not_closed hblank).2 (hlabel.resolve_left hblank)
    by_cases hopen : step.label = st.label ∧ st.stages ≠ []
    · exact ⟨_, normalizeStep_ok.2 ⟨hid, .inr ⟨hblank, hclosed, .inl ⟨hopen.1, hopen.2, rfl⟩⟩⟩⟩
    · exact ⟨_, normalizeStep_ok.2 ⟨hid, .inr ⟨hblank, hclosed, .inr ⟨hopen, rfl⟩⟩⟩⟩

/-- The labels that are closed once the open one is left. -/
theorem Normalized.mem_close (h : Normalized steps st) :
    label ∈ st.close ↔ label ≠ "" ∧ label ∈ steps.map Step.label := by
  have hopen : st.label ≠ "" → st.label ∈ steps.map Step.label := fun hlabel =>
    List.mem_of_getLast? ((h.getLast_label hlabel).2 rfl)
  unfold Normalizing.close
  by_cases hblank : st.label = ""
  · rw [if_pos hblank, h.closed, hblank]
    tauto
  · rw [if_neg hblank, List.mem_cons, h.closed]
    by_cases hsame : label = st.label
    · rw [hsame]
      exact iff_of_true (.inl rfl) ⟨hblank, hopen hblank⟩
    · simp [hsame]

/-- A step with a stage of its own shares it with none of the steps before. -/
theorem Normalized.open_shares (h : Normalized steps st) {index : ℕ}
    (hnew : step.label = "" ∨ step.label ∉ steps.map Step.label) :
    ∀ a ∈ (stageSteps st.stages).zip steps, Shares a (⟨st.stages.length, index, step.id⟩, step) := by
  intro a ha
  obtain ⟨hstage, hstep⟩ := List.of_mem_zip ha
  have hindex := h.staged.stageIndex_lt hstage
  refine iff_of_false (Int.ne_of_lt hindex) ?_
  rintro ⟨hsame, hlabel⟩
  rcases hnew with hblank | hfresh
  · exact hlabel (hsame.trans hblank)
  · exact hfresh (hsame ▸ List.mem_map_of_mem hstep)

/-- A step of the open stage shares it with the steps that have its label. -/
theorem Normalized.added_shares (h : Normalized steps st) {index : ℕ} {earlier : List Stage} {last : Stage}
    (hstages : st.stages = earlier ++ [last]) (hlabel : step.label ≠ "") (hopen : step.label = st.label) :
    ∀ a ∈ (stageSteps st.stages).zip steps, Shares a (⟨last.index, index, step.id⟩, step) := by
  have hshares := h.shares
  have hlength := h.staged.length_eq
  have hlast : last ∈ st.stages := by simp [hstages]
  -- the last of the steps so far is in the open stage and has its label
  rcases List.eq_nil_or_concat (stageSteps st.stages) with hnil | ⟨before, s, hconcat⟩
  · simp [hnil]
  rcases List.eq_nil_or_concat steps with rfl | ⟨steps₀, p, rfl⟩
  · simp
  have hs : s.stageIndex = last.index := by
    rw [hstages, stageSteps_concat] at hconcat
    have hmem : s ∈ last.steps := by
      have hnonempty := h.staged.nonempty last hlast
      have hgetLast := congrArg List.getLast? hconcat
      rw [List.getLast?_append_of_ne_nil _ hnonempty, List.concat_eq_append, List.getLast?_concat] at hgetLast
      exact List.mem_of_getLast? hgetLast
    exact h.staged.stage last hlast s hmem
  have hp : p.label = step.label := by
    have hgetLast := (h.getLast_label hlabel).2 hopen.symm
    simpa using hgetLast
  rw [hconcat, List.concat_eq_append, List.concat_eq_append, List.zip_append (by simpa [hconcat] using hlength)] at hshares ⊢
  intro a ha
  show a.1.stageIndex = last.index ↔ a.2.label = step.label ∧ a.2.label ≠ ""
  rcases List.mem_append.1 ha with ha | ha
  · have hshare : Shares a (s, p) := (List.pairwise_append.1 hshares).2.2 a ha (s, p) (by simp)
    rw [← hs, ← hp]
    exact hshare
  · obtain rfl : a = (s, p) := by simpa using ha
    exact iff_of_true hs ⟨hp, hp ▸ hlabel⟩

theorem seen_concat (h : Normalized steps st) (id : String) :
    id ∈ step.id :: st.seen ↔ id ∈ (steps ++ [step]).map (·.id) := by
  rw [List.mem_cons, h.seen, List.map_append, List.mem_append, List.map_singleton, List.mem_singleton, or_comm]

/-- **A round keeps the invariant.** -/
theorem Normalized.round (h : Normalized steps st) (hround : normalizeStep st steps.length step = .ok st') :
    Normalized (steps ++ [step]) st' := by
  have hstaged := normalizeStep_staged h.staged hround
  obtain ⟨-, ⟨hblank, rfl⟩ | ⟨hlabel, hclosed, ⟨hopen, hstages, rfl⟩ | ⟨hopen, rfl⟩⟩⟩ := normalizeStep_ok.1 hround
  · -- a stage for a step without label
    refine ⟨hstaged, ?_, by simp [hblank], fun label => ?_, seen_concat h⟩
    · rw [Normalizing.opened, stageSteps_concat]
      exact shares_concat h.staged.length_eq h.shares (h.open_shares (.inl hblank))
    · rw [h.mem_close]
      simp [hblank]
      tauto
  · -- a step more in the open stage
    obtain ⟨earlier, last, hlast, hadd⟩ := addToLast_eq step.label step.id steps.length hstages
    refine ⟨hstaged, ?_, by simp [hopen], fun label => ?_, seen_concat h⟩
    · have hsteps : stageSteps (addToLast step.label steps.length step.id st.stages) =
          stageSteps st.stages ++ [⟨last.index, steps.length, step.id⟩] := by
        rw [hadd, hlast, stageSteps_concat, stageSteps_concat, List.append_assoc]
      show ((stageSteps (addToLast _ _ _ _)).zip _).Pairwise Shares
      rw [hsteps]
      exact shares_concat h.staged.length_eq h.shares (h.added_shares hlast hlabel hopen)
    · rw [h.closed]
      simp [hopen]
      tauto
  · -- a stage for a new label
    have hfresh : step.label ∉ steps.map Step.label := by
      refine ((h.not_closed hlabel).1 hclosed).resolve_right fun hlast => hopen ⟨((h.getLast_label hlabel).1 hlast).symm, ?_⟩
      rintro hnil
      have hlength := h.staged.length_eq
      rw [hnil] at hlength
      obtain rfl : steps = [] := List.eq_nil_of_length_eq_zero hlength.symm
      simp at hlast
    refine ⟨hstaged, ?_, by simp, fun label => ?_, seen_concat h⟩
    · rw [Normalizing.opened, stageSteps_concat]
      exact shares_concat h.staged.length_eq h.shares (h.open_shares (.inr hfresh))
    · rw [h.mem_close, List.map_append, List.mem_append, List.map_singleton, List.mem_singleton]
      by_cases hsame : label = step.label
      · rw [hsame]
        exact iff_of_false (fun hold => hfresh hold.2) fun hnew => hnew.2.1 rfl
      · simp [hsame]

/-- What makes a list of steps acceptable. -/
def Acceptable (steps : List Step) : Prop := (steps.map (·.id)).Nodup ∧ Contiguous (steps.map Step.label)

theorem acceptable_concat : Acceptable (steps ++ [step]) ↔ Acceptable steps ∧ step.id ∉ steps.map (·.id) ∧
    (step.label = "" ∨ step.label ∉ steps.map Step.label ∨ (steps.map Step.label).getLast? = some step.label) := by
  unfold Acceptable
  rw [List.map_append, List.map_append, List.map_singleton, List.map_singleton, contiguous_concat,
    ← List.concat_eq_append, List.nodup_concat]
  tauto

theorem Acceptable.of_append {more : List Step} (h : Acceptable (steps ++ more)) : Acceptable steps := by
  unfold Acceptable at h ⊢
  rw [List.map_append, List.map_append] at h
  exact ⟨h.1.of_append_left, h.2.of_append⟩

/-- **The loop succeeds exactly on acceptable steps**, and keeps the invariant. By induction on the steps that are left. -/
theorem Normalized.loop (h : Normalized steps st) (hsteps : Acceptable steps) (rest : List Step) :
    ((∃ st', normalizeFrom st steps.length rest = .ok st') ↔ Acceptable (steps ++ rest)) ∧
      ∀ st', normalizeFrom st steps.length rest = .ok st' → Normalized (steps ++ rest) st' := by
  induction rest generalizing steps st with
  | nil =>
    rw [List.append_nil]
    refine ⟨iff_of_true ⟨st, rfl⟩ hsteps, fun st' hst' => ?_⟩
    cases hst'
    exact h
  | cons step rest ih =>
    have hsplit : steps ++ step :: rest = (steps ++ [step]) ++ rest := by simp
    cases hround : normalizeStep st steps.length step with
    | error e =>
      have hfails : ∀ st', normalizeFrom st steps.length (step :: rest) ≠ .ok st' := by
        intro st' hst'
        rw [normalizeFrom, hround] at hst'
        cases hst'
      refine ⟨iff_of_false (not_exists.2 hfails) fun hall => ?_, fun st' hst' => absurd hst' (hfails st')⟩
      rw [hsplit] at hall
      obtain ⟨st', hst'⟩ := (h.round_iff steps.length).2 (acceptable_concat.1 hall.of_append).2
      rw [hround] at hst'
      cases hst'
    | ok next =>
      have hnext := h.round hround
      have haccepted : Acceptable (steps ++ [step]) :=
        acceptable_concat.2 ⟨hsteps, (h.round_iff steps.length).1 ⟨next, hround⟩⟩
      have hloop : normalizeFrom st steps.length (step :: rest) = normalizeFrom next (steps ++ [step]).length rest := by
        rw [normalizeFrom, hround, List.length_append]
        rfl
      rw [hsplit, hloop]
      exact ih hnext haccepted

end

/-! ### Normalisation -/

/-- **Stage normalisation.** A workflow has stages exactly when it has steps, their ids are distinct and every label
that is not blank occupies one block. The stages are then numbered from zero and hold the steps, which are numbered from
zero, in their order; and two steps share a stage exactly when they have the same label and it is not blank. -/
theorem normalizeStages_correct (workflow : WorkflowDefinition) :
    ((∃ stages, normalizeStages workflow = .ok stages) ↔ workflow.steps ≠ [] ∧ (workflow.steps.map (·.id)).Nodup ∧
      Contiguous (workflow.steps.map Step.label)) ∧
    ∀ stages, normalizeStages workflow = .ok stages → Staged workflow.steps stages ∧
      ∀ (i j : ℕ) (a b : Step) (s t : StageStep), i < j → workflow.steps[i]? = some a → workflow.steps[j]? = some b →
        (stageSteps stages)[i]? = some s → (stageSteps stages)[j]? = some t →
        (s.stageIndex = t.stageIndex ↔ a.label = b.label ∧ a.label ≠ "") := by
  obtain ⟨hiff, hloop⟩ := normalized_nil.loop ⟨.nil, contiguous_nil⟩ workflow.steps
  rw [List.nil_append] at hiff
  by_cases hempty : workflow.steps = []
  · have hfails : ∀ stages, normalizeStages workflow ≠ .ok stages := by
      intro stages hstages
      rw [normalizeStages, hempty] at hstages
      cases hstages
    exact ⟨iff_of_false (fun ⟨stages, h⟩ => hfails stages h) (fun h => h.1 hempty), fun stages h => absurd h (hfails stages)⟩
  · have hrun : ∀ stages, normalizeStages workflow = .ok stages ↔
        ∃ st, normalizeFrom ⟨[], "", [], []⟩ 0 workflow.steps = .ok st ∧ st.stages = stages := by
      intro stages
      rw [normalizeStages, if_neg (by simpa using hempty), except_bind_ok]
      exact exists_congr fun st => and_congr_right fun _ => ⟨Except.ok.inj, congrArg Except.ok⟩
    refine ⟨?_, fun stages hstages => ?_⟩
    · rw [and_iff_right hempty, ← Acceptable, ← hiff]
      constructor
      · rintro ⟨stages, hstages⟩
        obtain ⟨st, hst, _⟩ := (hrun stages).1 hstages
        exact ⟨st, hst⟩
      · rintro ⟨st, hst⟩
        exact ⟨st.stages, (hrun _).2 ⟨st, hst, rfl⟩⟩
    · obtain ⟨st, hst, rfl⟩ := (hrun stages).1 hstages
      have hnormalized : Normalized workflow.steps st := hloop st hst
      refine ⟨hnormalized.staged, fun i j a b s t hij ha hb hs ht => ?_⟩
      have hi : ((stageSteps st.stages).zip workflow.steps)[i]? = some (s, a) := by
        rw [List.getElem?_zip_eq_some]
        exact ⟨hs, ha⟩
      have hj : ((stageSteps st.stages).zip workflow.steps)[j]? = some (t, b) := by
        rw [List.getElem?_zip_eq_some]
        exact ⟨ht, hb⟩
      obtain ⟨hi', hi⟩ := List.getElem?_eq_some_iff.1 hi
      obtain ⟨hj', hj⟩ := List.getElem?_eq_some_iff.1 hj
      have hshares := List.pairwise_iff_getElem.1 hnormalized.shares i j hi' hj' hij
      rwa [hi, hj] at hshares

namespace Sample

/-- Two steps with one label, written differently, between two without. -/
def workflow : WorkflowDefinition := ⟨"workflow", [⟨"a", ""⟩, ⟨"b", "x"⟩, ⟨"c", " x "⟩, ⟨"d", ""⟩], ""⟩

theorem workflow_normalizes :
    ∃ stages, normalizeStages workflow = .ok stages ∧ Staged workflow.steps stages ∧ stages.length = 3 := by
  refine ⟨_, rfl, ((normalizeStages_correct workflow).2 _ rfl).1, rfl⟩

end Sample

end GoEtl.Workflow
