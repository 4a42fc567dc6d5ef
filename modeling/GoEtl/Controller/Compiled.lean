import GoEtl.Controller.Settled

/-!
# What a compiled stage is stored as

The rows of a compiled stage, against what it was compiled from. A stage is compiled to work items of its
own steps (`InStage`), each work item becomes a row with its payload (`IsRowOf`), and **`StoredAs`** says
which rows are queued at once, and which of them become members: those that wait for no work item of
the stage, and of these the ones that are not materializations.
-/

namespace GoEtl.Controller

open Library Persistence Workflow

variable {rt : Runtime} {workflow : WorkflowDefinition} {outputs : List String} {stages : List Stage} {k : ℤ}
  {run : WorkflowRunRecord} {result : CompileStageResult} {codeVersion : String}

/-! ### Compilation -/

/-- A compiled stage and its work items, each of a step of the stage. -/
structure InStage (stages : List Stage) (k : ℤ) (result : CompileStageResult) : Prop where
  stageIndex : result.stageIndex = k
  workItem : ∃ stage ∈ stages, stage.index = k ∧ ∀ i ∈ result.workItems, i.stageIndex = k ∧
    ∃ step ∈ stage.steps, step.stepIndex = i.stepIndex ∧ step.stepId = i.stepId

theorem compileSteps_ok {seen : List String} {steps : List StageStep} {items : List CompileStageWorkItem}
    (h : compileSteps rt workflow outputs k seen steps = .ok items) :
    ∀ i ∈ items, i.stageIndex = k ∧ ∃ step ∈ steps, step.stepIndex = i.stepIndex ∧ step.stepId = i.stepId := by
  induction steps generalizing seen items with
  | nil =>
    cases h
    simp
  | cons step steps ih =>
    obtain ⟨own, _, h⟩ := except_bind_ok.1 h
    obtain ⟨seen', _, h⟩ := except_bind_ok.1 h
    obtain ⟨rest, hrest, h⟩ := except_bind_ok.1 h
    cases h
    intro i hi
    rcases List.mem_append.1 hi with hi | hi
    · obtain ⟨c, _, rfl⟩ := List.mem_map.1 hi
      exact ⟨rfl, step, List.mem_cons_self, rfl, rfl⟩
    · obtain ⟨hk, step', hstep', hsame⟩ := ih hrest i hi
      exact ⟨hk, step', List.mem_cons_of_mem _ hstep', hsame⟩

theorem compileWorkflowStage_ok (h : compileWorkflowStage rt workflow outputs stages k = .ok result) :
    InStage stages k result := by
  obtain ⟨_, _, h⟩ := except_bind_ok.1 h
  split at h
  · cases h
  · rename_i stage hfind
    obtain ⟨items, hitems, h⟩ := except_bind_ok.1 h
    obtain ⟨_, _, h⟩ := except_bind_ok.1 h
    cases h
    exact ⟨rfl, stage, List.mem_of_find?_eq_some hfind, by simpa using List.find?_some hfind, compileSteps_ok hitems⟩

/-- Admission keeps the steps of the work items. -/
theorem admitStage_ok {admitted : CompileStageResult} (h : admitStage rt run result = .ok admitted)
    (hresult : InStage stages k result) : InStage stages k admitted := by
  obtain ⟨items, _, h⟩ := except_bind_ok.1 h
  obtain ⟨_, _, h⟩ := except_bind_ok.1 h
  cases h
  obtain ⟨stage, hstage, hindex, hsteps⟩ := hresult.workItem
  refine ⟨hresult.stageIndex, stage, hstage, hindex, fun i hi => ?_⟩
  obtain ⟨n, hn, rfl⟩ := List.getElem_of_mem hi
  simp only [List.length_zipWith, lt_inf_iff] at hn
  rw [List.getElem_zipWith]
  exact hsteps (result.workItems.get ⟨n, hn.1⟩) (List.getElem_mem hn.1)

theorem compileAdmitted_ok (h : compileAdmitted rt run workflow outputs k = .ok (result, codeVersion)) :
    ∃ stages, normalizeStages workflow = .ok stages ∧ InStage stages k result := by
  obtain ⟨version, _, h⟩ := except_bind_ok.1 h
  obtain ⟨stages, hstages, h⟩ := except_bind_ok.1 h
  obtain ⟨compiled, hcompiled, h⟩ := except_bind_ok.1 h
  obtain ⟨admitted, hadmitted, h⟩ := except_bind_ok.1 h
  cases h
  exact ⟨stages, hstages, admitStage_ok hadmitted (compileWorkflowStage_ok hcompiled)⟩

theorem compileInitialStage_ok (h : compileInitialStage rt run workflow = .ok (some (stages, result))) :
    normalizeStages workflow = .ok stages ∧ InStage stages 0 result := by
  unfold compileInitialStage at h
  split at h
  · obtain ⟨_, _, h⟩ := except_bind_ok.1 h
    cases h
  · obtain ⟨stages', hstages, h⟩ := except_bind_ok.1 h
    obtain ⟨compiled, hcompiled, h⟩ := except_bind_ok.1 h
    obtain ⟨admitted, hadmitted, h⟩ := except_bind_ok.1 h
    cases h
    exact ⟨wrapError_ok.1 hstages, admitStage_ok hadmitted (compileWorkflowStage_ok (wrapError_ok.1 hcompiled))⟩

/-! ### Rows -/

theorem HasPayload.unique {x : WorkItemRecord} {item item' : WorkItem} (h : HasPayload rt x item)
    (h' : HasPayload rt x item') : item = item' := by
  have heq : Except.ok item = Except.ok item' := h.symm.trans h'
  cases heq
  rfl

/-- The row of a compiled work item. -/
def IsRowOf (rt : Runtime) (runId : String) (i : CompileStageWorkItem) (x : WorkItemRecord) : Prop :=
  x.runId = runId ∧ x.stageIndex = i.stageIndex ∧ ∃ item, HasPayload rt x item ∧ item.type = i.workItem.type ∧
    item.stepDefinitionId = i.stepId ∧ item.dependsOn = i.workItem.dependsOn.map (persistedDependencyId runId)

/-- A work item on its way to the store, against what was compiled. -/
structure PreparedFrom (rt : Runtime) (runId : String) (i : CompileStageWorkItem) (p : PreparedItem) : Prop where
  row : IsRowOf rt runId i p.record
  payload : HasPayload rt p.record p.payload
  type : p.payload.type = i.workItem.type
  stepIndex : p.stepIndex = i.stepIndex

variable {runId timestamp : String}

variable {p : PreparedItem}

theorem prepareItem_ok (hrt : rt.Lawful) {origin : Provenance} {index : ℕ} {i : CompileStageWorkItem}
    (h : prepareItem rt origin timestamp index i = .ok p) : PreparedFrom rt origin.runId i p := by
  obtain ⟨body, _, h⟩ := except_bind_ok.1 h
  obtain ⟨text, htext, h⟩ := except_bind_ok.1 h
  obtain ⟨hash, _, h⟩ := except_bind_ok.1 h
  obtain ⟨_, _, h⟩ := except_bind_ok.1 h
  cases h
  have hpayload := hrt.workItem _ _ (wrapError_ok.1 htext)
  exact ⟨⟨rfl, rfl, _, hpayload, rfl, rfl, rfl⟩, hpayload, rfl, rfl⟩

variable {prepared : List PreparedItem}

theorem prepareItems_ok (hrt : rt.Lawful) {o : CompileStageWorkItem → Provenance}
    (horigin : ∀ i, (o i).runId = runId) {before items : List CompileStageWorkItem}
    (h : prepareItems rt o timestamp before items = .ok prepared) :
    List.Forall₂ (PreparedFrom rt runId) items prepared := by
  induction items generalizing before prepared with
  | nil =>
    cases h
    exact .nil
  | cons i items ih =>
    obtain ⟨p, hp, h⟩ := except_bind_ok.1 h
    obtain ⟨others, hothers, h⟩ := except_bind_ok.1 h
    cases h
    exact .cons (horigin i ▸ prepareItem_ok hrt hp) (ih hothers)

theorem hasCurrentStageDependency_eq_true {dependsOn : List String} :
    hasCurrentStageDependency dependsOn prepared = true ↔ ∃ d ∈ dependsOn, ∃ p ∈ prepared, p.record.id = d := by
  simp [hasCurrentStageDependency]

theorem preparedById_mem {id : String}
    (h : preparedById prepared id = some p) : p ∈ prepared ∧ p.record.id = id :=
  ⟨List.mem_reverse.1 (List.mem_of_find?_eq_some h), by simpa using List.find?_some h⟩

theorem exists_preparedById (h : p ∈ prepared) : ∃ last, preparedById prepared p.record.id = some last := by
  rw [← Option.isSome_iff_exists, preparedById, List.find?_isSome]
  exact ⟨p, List.mem_reverse.2 h, by simp⟩

/-- The work item is queued at once. -/
def StageRecords.Queues (records : StageRecords) (x : WorkItemRecord) : Prop := ∃ q ∈ records.queued, q.id = x.id

/-- **The records of a stage.** What is queued at once depends on the last work item with an id, so that some
of it needs the ids to determine the rows. -/
structure StoredAs (rt : Runtime) (runId : String) (result : CompileStageResult) (records : StageRecords) : Prop where
  /-- The rows are those of the compiled work items. -/
  row : ∀ x ∈ records.items, ∃ i ∈ result.workItems, IsRowOf rt runId i x
  compiled : ∀ i ∈ result.workItems, ∃ x ∈ records.items, IsRowOf rt runId i x
  /-- Only rows of the stage are queued. -/
  queued : ∀ q ∈ records.queued, ∃ x ∈ records.items, x.id = q.id
  /-- Members are queued and no materializations. -/
  member : ∀ m ∈ records.memberships, ∃ x ∈ records.items, ∃ i ∈ result.workItems, IsRowOf rt runId i x ∧
    Ordinary rt x ∧ m = ⟨x.stageIndex, i.stepIndex, x.id, x.workItemIndex⟩ ∧ records.Queues x
  /-- What is queued and no materialization is a member. -/
  enrolled : (∀ x ∈ records.items, ∀ y ∈ records.items, x.id = y.id → x = y) → ∀ x ∈ records.items,
    records.Queues x → Ordinary rt x → ∃ m ∈ records.memberships, m.workItemId = x.id
  /-- What is queued at once is what waits for nothing in the stage. -/
  queues_iff : (∀ x ∈ records.items, ∀ y ∈ records.items, x.id = y.id → x = y) → ∀ x ∈ records.items, ∀ item,
    HasPayload rt x item → (records.Queues x ↔ ∀ d ∈ item.dependsOn, ∀ y ∈ records.items, y.id ≠ d)
  source : ∃ codeVersion timestamp, persistenceRecordsFromCompiledStageResults rt runId result codeVersion timestamp =
    .ok records

section Records

variable {prepared : List PreparedItem} (hprepared : List.Forall₂ (PreparedFrom rt runId) result.workItems prepared)

include hprepared

theorem exists_compiled (hp : p ∈ prepared) : ∃ i ∈ result.workItems, PreparedFrom rt runId i p := by
  obtain ⟨n, hn, rfl⟩ := List.getElem_of_mem hp
  have hlength := hprepared.length_eq
  exact ⟨_, List.getElem_mem (hlength ▸ hn), List.forall₂_iff_get.1 hprepared |>.2 n (hlength ▸ hn) hn⟩

theorem exists_prepared {i : CompileStageWorkItem} (hi : i ∈ result.workItems) :
    ∃ p ∈ prepared, PreparedFrom rt runId i p := by
  obtain ⟨n, hn, rfl⟩ := List.getElem_of_mem hi
  have hlength := hprepared.length_eq
  exact ⟨_, List.getElem_mem (hlength ▸ hn), List.forall₂_iff_get.1 hprepared |>.2 n hn (hlength ▸ hn)⟩

/-- With ids that determine the rows, the last work item with an id has the payload of every other. -/
theorem payload_preparedById (hids : ∀ p ∈ prepared, ∀ p' ∈ prepared, p.record.id = p'.record.id → p.record = p'.record)
    {last : PreparedItem} (hp : p ∈ prepared) (hlast : preparedById prepared p.record.id = some last) :
    HasPayload rt p.record last.payload := by
  obtain ⟨hmem, hid⟩ := preparedById_mem hlast
  obtain ⟨_, _, hfrom⟩ := exists_compiled hprepared hmem
  rw [hids p hp last hmem hid.symm]
  exact hfrom.payload

end Records

/-- **How a compiled stage is stored.** -/
theorem persistenceRecords_storedAs (hrt : rt.Lawful) {records : StageRecords}
    (h : persistenceRecordsFromCompiledStageResults rt runId result codeVersion timestamp = .ok records) :
    StoredAs rt runId result records := by
  have hsource := h
  obtain ⟨prepared, hitems, h⟩ := except_bind_ok.1 h
  cases h
  have hprepared : List.Forall₂ (PreparedFrom rt runId) result.workItems prepared :=
    prepareItems_ok hrt (o := provenance runId result.workflowId codeVersion result.workItems) (fun _ => rfl) hitems
  have hqueues : ∀ p ∈ prepared, ∀ x : WorkItemRecord, p.record.id = x.id → isQueuedAtOnce prepared p = true →
      ∃ q ∈ (prepared.filter (isQueuedAtOnce prepared)).map fun item => (⟨item.record, timestamp⟩ : QueuedWorkRecord),
        q.id = x.id :=
    fun p hp x hid honce => ⟨_, List.mem_map_of_mem (List.mem_filter.2 ⟨hp, honce⟩), hid⟩
  have hrows : (∀ x ∈ prepared.map (·.record), ∀ y ∈ prepared.map (·.record), x.id = y.id → x = y) →
      ∀ p ∈ prepared, ∀ p' ∈ prepared, p.record.id = p'.record.id → p.record = p'.record := fun hids p hp p' hp' =>
    hids _ (List.mem_map_of_mem hp) _ (List.mem_map_of_mem hp')
  refine ⟨fun x hx => ?_, fun i hi => ?_, fun q hq => ?_, fun m hm => ?_, fun hids x hx hq ho => ?_,
    fun hids x hx item hitem => ?_, codeVersion, timestamp, hsource⟩
  · obtain ⟨p, hp, rfl⟩ := List.mem_map.1 hx
    obtain ⟨i, hi, hfrom⟩ := exists_compiled hprepared hp
    exact ⟨i, hi, hfrom.row⟩
  · obtain ⟨p, hp, hfrom⟩ := exists_prepared hprepared hi
    exact ⟨_, List.mem_map_of_mem hp, hfrom.row⟩
  · obtain ⟨p, hp, rfl⟩ := List.mem_map.1 hq
    exact ⟨p.record, List.mem_map_of_mem (List.mem_filter.1 hp).1, rfl⟩
  · obtain ⟨p, hp, hm⟩ := List.mem_filterMap.1 hm
    obtain ⟨last, hlast, hm⟩ := Option.bind_eq_some_iff.1 hm
    obtain ⟨hmem, hid⟩ := preparedById_mem hlast
    obtain ⟨i, hi, hfrom⟩ := exists_compiled hprepared hmem
    unfold PreparedItem.membership at hm
    split at hm
    · cases hm
    · rename_i htype
      cases hm
      refine ⟨_, List.mem_map_of_mem hmem, i, hi, hfrom.row, ⟨_, hfrom.payload, htype⟩, by rw [hfrom.stepIndex], ?_⟩
      exact hqueues p (List.mem_filter.1 hp).1 _ hid.symm (List.mem_filter.1 hp).2
  · obtain ⟨q, hq, hid⟩ := hq
    obtain ⟨p, hp, rfl⟩ := List.mem_map.1 hq
    have hmem : p ∈ prepared := (List.mem_filter.1 hp).1
    have hpx : p.record = x := hids _ (List.mem_map_of_mem hmem) x hx hid
    obtain ⟨last, hlast⟩ := exists_preparedById hmem
    have hpayload := payload_preparedById hprepared (hrows hids) hmem hlast
    obtain ⟨item, hitem, htype⟩ := ho
    rw [hpx] at hpayload
    rw [hpayload.unique hitem |>.symm] at htype
    refine ⟨_, List.mem_filterMap.2 ⟨p, hp, by rw [hlast]; exact if_neg htype⟩, ?_⟩
    exact (preparedById_mem hlast).2.trans hid
  · obtain ⟨p, hp, rfl⟩ := List.mem_map.1 hx
    obtain ⟨last, hlast⟩ := exists_preparedById hp
    have hpayload := payload_preparedById hprepared (hrows hids) hp hlast
    have honce : isQueuedAtOnce prepared p = true ↔ ∀ d ∈ item.dependsOn, ∀ y ∈ prepared.map (·.record), y.id ≠ d := by
      rw [isQueuedAtOnce, hlast, ← hpayload.unique hitem, Bool.not_eq_true', Bool.eq_false_iff, ne_eq,
        hasCurrentStageDependency_eq_true]
      simp only [not_exists, not_and, List.forall_mem_map, ne_eq]
    rw [← honce]
    constructor
    · rintro ⟨q, hq, hid⟩
      obtain ⟨p', hp', rfl⟩ := List.mem_map.1 hq
      have hid : p'.record.id = p.record.id := hid
      have hatOnce := (List.mem_filter.1 hp').2
      rw [isQueuedAtOnce, hid] at hatOnce
      exact hatOnce
    · exact hqueues p hp _ rfl

end GoEtl.Controller
