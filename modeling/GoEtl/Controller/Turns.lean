import GoEtl.Controller.Submissions
import GoEtl.Controller.System

/-!
# Handlers that take turns

The system as long as its handlers take turns (`Orderly`): a handler takes its steps while no other one is in
progress, workers register, claim and show that they live at any time, work is recovered from sessions only
between the handlers, and no handler answers with a server error. **`Orderly.atRest`**: between the handlers
runs are settled. **`Orderly.handlerStep`**: every step of a handler is one that `HandlerStep` allows; everything
else carries on with the work there is (`Beside.carried`).
-/

namespace GoEtl.Controller

open Library Persistence Workflow

variable {rt : Runtime} {u v : Prop} {w : World}

/-- The state between the handlers. With `v`, the run of a failed materialization is marked. -/
structure AtRest (rt : Runtime) (u v : Prop) (w : World) : Prop where
  settled : Settled rt u .none w
  fallen : v → Fallen rt ∅ w

theorem Shape.initial : Shape rt u ⟨Store.empty, []⟩ where
  rooted := .empty
  placement := inOnePlace_empty
  outcome := by simp [OneOutcome, IsCompleted, Store.empty]
  admitted _ hr := absurd hr List.not_mem_nil
  planned _ hs := absurd hs List.not_mem_nil
  workflow _ hr := absurd hr List.not_mem_nil
  item _ hx := absurd hx List.not_mem_nil
  queue _ hq := by simp [IsQueued, Store.empty] at hq
  member _ hm := absurd hm List.not_mem_nil
  fact _ _ hf := by simp [HasFact, Store.empty] at hf
  kind _ hs := absurd hs List.not_mem_nil
  materialize _ hx := absurd hx List.not_mem_nil
  dependsOn _ _ hs := absurd hs List.not_mem_nil
  begun _ hx := absurd hx List.not_mem_nil
  nodup := List.nodup_nil
  before _ _ _ _ hs := absurd hs List.not_mem_nil
  facts _ _ hs := absurd hs List.not_mem_nil
  barrier _ _ hx := absurd hx List.not_mem_nil

theorem AtRest.initial : AtRest rt u v ⟨Store.empty, []⟩ where
  settled := {
    toShape := .initial
    activated := fun _ ha => absurd ha List.not_mem_nil
    opened := fun _ hx => absurd hx List.not_mem_nil
    enrolled := fun _ hx => absurd hx List.not_mem_nil
    filled := fun _ hs => absurd hs List.not_mem_nil
    followed := fun _ _ hdone => by
      obtain ⟨⟨_, hs, _⟩, _⟩ := hdone
      exact absurd hs List.not_mem_nil
    together := fun _ _ hs => absurd hs List.not_mem_nil
    published := fun _ hs => absurd hs List.not_mem_nil
    released := fun _ hx => absurd hx List.not_mem_nil }
  fallen _ _ hx := absurd hx List.not_mem_nil

/-! ### Activities -/

theorem Activity.causes_carries {a : Activity} {e : Event} (h : a.op.causes e) : e.carries = true ∧ e.done = ∅ := by
  cases a with
  | claim request =>
    obtain ⟨queued, rfl⟩ := h
    exact ⟨rfl, rfl⟩
  | register request => rcases h with rfl | rfl <;> exact ⟨rfl, rfl⟩
  | heartbeat request | endSession request =>
    cases h
    exact ⟨rfl, rfl⟩
  | stop request => rcases h with rfl | ⟨running, rfl⟩ <;> exact ⟨rfl, rfl⟩
  | recover request => obtain ⟨_, _, rfl | ⟨running, rfl | rfl⟩⟩ := h <;> exact ⟨rfl, rfl⟩

/-- **Activities carry on with the work there is.** -/
theorem Beside.carried (b : Beside) (w : World) : Carried ∅ w.db (b.act w).db :=
  (Call.moves w.db ⟨b.fk, b.activity.op⟩).rel Carried.refl Carried.trans fun s e t he hmove => by
    obtain ⟨hcarries, hdone⟩ := Activity.causes_carries he
    exact hdone ▸ hmove.carried hcarries

theorem Activity.causes_ofWorker {a : Activity} (ha : a.recovers = false) {e : Event} (h : a.op.causes e) :
    e.ofWorker = true := by
  cases a with
  | claim request =>
    obtain ⟨queued, rfl⟩ := h
    rfl
  | register request => rcases h with rfl | rfl <;> rfl
  | heartbeat request | endSession request =>
    cases h
    rfl
  | stop request | recover request => cases ha

/-- What workers do may go on beside a handler. -/
theorem Beside.interference {b : Beside} (hb : b.activity.recovers = false) (w : World) : Interference w (b.act w) where
  activations := rfl
  worked := (Call.moves w.db ⟨b.fk, b.activity.op⟩).rel Worked.refl Worked.trans fun _ _ _ he hmove =>
    hmove.worked (Activity.causes_ofWorker hb he)

/-- The activity fails no materialization. -/
def Beside.Spares (rt : Runtime) (w : World) (b : Beside) : Prop :=
  ∀ x ∈ w.db.workItems, IsFailed (b.act w).db x.id → IsFailed w.db x.id ∨ Ordinary rt x

instance (x : WorkItemRecord) : Decidable (Ordinary rt x) :=
  match h : rt.decodeWorkItem x.workerPayloadJson with
  | .ok item => decidable_of_iff (item.type ≠ .assetMaterialize) (by simp [Ordinary, HasPayload, h])
  | .error e => .isFalse (by simp [Ordinary, HasPayload, h])

instance (b : Beside) : Decidable (b.Spares rt w) := inferInstanceAs (Decidable (∀ x ∈ w.db.workItems, _))

theorem AtRest.act (h : AtRest rt u v w) {b : Beside} (hb : v → b.Spares rt w) : AtRest rt u v (b.act w) where
  settled := by
    have hcarried := h.settled.carried (b.carried w)
    rwa [Pending.completing_empty] at hcarried
  fallen hv x hx hfailed := by
    rw [(b.carried w).items] at hx
    rcases hb hv x hx hfailed with hfailed | hordinary
    · rw [Marked, (b.carried w).instances]
      exact h.fallen hv x hx hfailed
    · exact .inr (.inl hordinary)

/-! ### Turns -/

/-- What is asked of the environment while handlers take turns: work is recovered between the handlers, with `v` no
materialization fails by that, and the runs that are submitted are admissible. -/
def discipline (rt : Runtime) (u v : Prop) : Pool.Discipline World Beside Request where
  beside b := b.activity.recovers = false
  allowed w b := v → b.Spares rt w
  admits
    | .submit submission => Admissible rt u submission.run
    | .complete _ _ => True
    | .fail _ _ => True

instance : DecidablePred (discipline rt u v).beside := fun b => inferInstanceAs (Decidable (b.activity.recovers = false))

instance [Decidable v] (b : Beside) : Decidable ((discipline rt u v).allowed w b) :=
  inferInstanceAs (Decidable (v → b.Spares rt w))

/-- **The handlers take turns** and give no server error. -/
structure Orderly (rt : Runtime) (u v : Prop) (moves : List SystemMove) : Prop where
  turns : ∀ x ∈ System.steps rt moves, Pool.Exclusive (discipline rt u v) x.1 x.2.1
  answered : (System.after rt moves).Answered Good

/-- **Every handler** leaves the system at rest. -/
theorem serve_safe (hrt : rt.Lawful) {request : Request} (hadmits : (discipline rt u v).admits request)
    (h : AtRest rt u v w) : Serves (HandlerStep rt u) (serve rt request) (AtRest rt u v) w := by
  have hrest : Serves (HandlerStep rt u) (serve rt request)
      (fun t => Settled rt u .none t ∧ (Fallen rt ∅ w → Fallen rt ∅ t)) w := by
    cases request with
    | submit submission => exact (submitWorkflowHandler_safe hrt h.settled hadmits).fallen h.settled.rooted
    | complete received completion => exact (completePersistedWorkHandler_safe hrt h.settled).fallen h.settled.rooted
    | fail received failure => exact failPersistedWorkHandler_safe hrt h.settled
  exact hrest.mono (fun _ t ht hgood => ⟨(ht hgood).1, fun hv => (ht hgood).2 (h.fallen hv)⟩) fun _ _ => id

section Run

variable {moves : List SystemMove} (hrt : rt.Lawful) (h : Orderly rt u v moves)

/-- Nobody has asked for anything yet. -/
theorem sound_initial : System.initial.Sound (AtRest rt u v) Interference (HandlerStep rt u) Good :=
  ⟨fun _ => .initial, fun _ ht => absurd ht List.not_mem_nil, fun _ ht => absurd ht List.not_mem_nil⟩

include hrt h

theorem Orderly.sound :
    (System.after rt moves).Sound (AtRest rt u v) Interference (HandlerStep rt u) Good ∧
      ∀ x ∈ System.steps rt moves, x.1.Sound (AtRest rt u v) Interference (HandlerStep rt u) Good :=
  sound_initial.run Interference.refl Interference.trans (fun w _ hb => Beside.interference hb w)
    (fun _ _ hb hw => hw.act hb)
    (fun _ hadmits _ hw => (serve_safe hrt hadmits hw).mono (fun _ _ => id) fun _ _ _ hfalse => hfalse.elim)
    h.turns h.answered

/-- **Between the handlers** runs are settled. -/
theorem Orderly.atRest (hquiet : (System.after rt moves).Quiet) : AtRest rt u v (System.after rt moves).state :=
  (h.sound hrt).1.quiet hquiet

/-- **A step of a handler** does what is allowed. -/
theorem Orderly.handlerStep {x : System × SystemMove × System} (hx : x ∈ System.steps rt moves) {n : ℕ} {i : Input}
    (hmove : x.2.1 = .advance n i) : HandlerStep rt u x.1.state x.2.2.state := by
  have hturn := h.turns x hx
  have happly : x.2.2 = Pool.apply Beside.act (serve rt) x.1 x.2.1 := apply_of_mem_trace hx
  rw [hmove] at hturn happly
  rw [happly]
  exact ((h.sound hrt).2 x hx).guarantee Interference.refl hturn HandlerStep.refl

/-- **What happens in a step**: a handler does what is allowed, or work is carried on. -/
theorem Orderly.step {x : System × SystemMove × System} (hx : x ∈ System.steps rt moves) :
    HandlerStep rt u x.1.state x.2.2.state ∨
      (x.2.2.state.activations = x.1.state.activations ∧ Carried ∅ x.1.state.db x.2.2.state.db) := by
  have happly : x.2.2 = Pool.apply Beside.act (serve rt) x.1 x.2.1 := apply_of_mem_trace hx
  cases hmove : x.2.1 with
  | env b =>
    rw [happly, hmove]
    exact .inr ⟨rfl, b.carried x.1.state⟩
  | spawn request =>
    rw [happly, hmove]
    exact .inr ⟨rfl, .refl _⟩
  | advance n i => exact .inl (h.handlerStep hrt hx hmove)

omit hrt h in
theorem Orderly.of_append {later : List SystemMove} (h : Orderly rt u v (moves ++ later)) : Orderly rt u v moves where
  turns x hx := by
    refine h.turns x ?_
    rw [System.steps, trace_append]
    exact List.mem_append_left _ hx
  answered := by
    have hanswered := h.answered
    rw [System.after, run_append] at hanswered
    exact Pool.Answered.of_run hanswered

omit h in
/-- What every step of a handler keeps and carrying on with the work keeps is kept from any state of an orderly
run on. -/
theorem Orderly.kept (before : List SystemMove) {later : List SystemMove} (h : Orderly rt u v (before ++ later)) {P : World → Prop}
    (hhandler : ∀ w w', HandlerStep rt u w w' → P w → P w')
    (hcarried : ∀ w w' : World, w'.activations = w.activations → Carried ∅ w.db w'.db → P w → P w')
    (hP : P (System.after rt before).state) : P (System.after rt (before ++ later)).state := by
  rw [System.after, run_append]
  refine run_invariant (P := fun s => P s.state) (C := fun s m =>
    HandlerStep rt u s.state (System.step rt s m).state ∨ ((System.step rt s m).state.activations = s.state.activations ∧
      Carried ∅ s.state.db (System.step rt s m).state.db)) ?_ (fun x hx => ?_) hP
  · rintro s m (hstep | ⟨hactivations, hstep⟩) hs
    · exact hhandler _ _ hstep hs
    · exact hcarried _ _ hactivations hstep hs
  · have happly : x.2.2 = System.step rt x.1 x.2.1 := apply_of_mem_trace hx
    have hmem : x ∈ System.steps rt (before ++ later) := by
      rw [System.steps, trace_append]
      exact List.mem_append_right _ hx
    exact happly ▸ h.step hrt hmem

/-- What every step of a handler keeps and carrying on with the work keeps holds in every state of an orderly
run. -/
theorem Orderly.invariant {P : World → Prop} (hinitial : P System.initial.state)
    (hhandler : ∀ w w', HandlerStep rt u w w' → P w → P w')
    (hcarried : ∀ w w' : World, w'.activations = w.activations → Carried ∅ w.db w'.db → P w → P w') :
    P (System.after rt moves).state :=
  Orderly.kept hrt [] h hhandler hcarried hinitial

end Run

/-! ### The small deployment -/

namespace Sample

variable {workflow : WorkflowDefinition} {items : List (String × WorkItem)} {run : WorkflowRunRecord}
  {result : CompileStageResult}

theorem decode_encode (hkeys : (items.map (·.1)).Nodup) {item : WorkItem} {text : String}
    (h : encode items item = .ok text) : decode items text = .ok item := by
  unfold encode at h
  split at h
  · rename_i entry hfound
    cases h
    have hmem := List.mem_of_find?_eq_some hfound
    have hitem : entry.2 = item := by simpa using List.find?_some hfound
    obtain ⟨other, hother⟩ := Option.isSome_iff_exists.1
      (List.find?_isSome.2 ⟨entry, hmem, beq_self_eq_true _⟩ : (items.find? (·.1 == entry.1)).isSome = true)
    have heq : other = entry := List.inj_on_of_nodup_map hkeys (List.mem_of_find?_eq_some hother) hmem
      (by simpa using List.find?_some hother)
    simp only [decode, hother, heq, hitem]
  · cases h

/-- The small deployment reads back what it wrote. -/
theorem lawful (hkeys : (items.map (·.1)).Nodup) : (runtime workflow items).Lawful where
  workItem _ _ := decode_encode hkeys
  dependencyState _ _ _ h := by cases h
  output _ _ _ h := by
    cases h
    decide

theorem compileSteps_mem {outputs : List String} {k : ℤ} {seen : List String} {steps : List StageStep}
    {compiled : List CompileStageWorkItem}
    (h : compileSteps (runtime workflow items) workflow outputs k seen steps = .ok compiled) :
    ∀ i ∈ compiled, ∃ entry ∈ items, i.workItem = entry.2 := by
  induction steps generalizing seen compiled with
  | nil =>
    cases h
    simp
  | cons step steps ih =>
    obtain ⟨own, hown, h⟩ := except_bind_ok.1 h
    obtain ⟨_, _, h⟩ := except_bind_ok.1 h
    obtain ⟨rest, hrest, h⟩ := except_bind_ok.1 h
    cases h
    cases wrapError_ok.1 hown
    intro i hi
    rcases List.mem_append.1 hi with hi | hi
    · obtain ⟨c, hc, rfl⟩ := List.mem_map.1 hi
      obtain ⟨entry, hentry, rfl⟩ := List.mem_map.1 hc
      exact ⟨entry, (List.mem_filter.1 hentry).1, rfl⟩
    · exact ih hrest i hi

theorem compileAdmitted_mem {stages : List Stage} {outputs : List String} {k : ℤ}
    (h : (do
      let compiled ← compileWorkflowStage (runtime workflow items) workflow outputs stages k
      admitStage (runtime workflow items) run compiled) = .ok result) :
    ∀ i ∈ result.workItems, ∃ entry ∈ items, i.workItem = entry.2 := by
  obtain ⟨compiled, hcompiled, h⟩ := except_bind_ok.1 h
  obtain ⟨admitted, hadmitted, h⟩ := except_bind_ok.1 h
  obtain ⟨_, _, h⟩ := except_bind_ok.1 h
  cases hadmitted
  cases h
  have hall : ∀ i ∈ compiled.workItems, ∃ entry ∈ items, i.workItem = entry.2 := by
    obtain ⟨_, _, hcompiled⟩ := except_bind_ok.1 hcompiled
    split at hcompiled
    · cases hcompiled
    · obtain ⟨own, hown, hcompiled⟩ := except_bind_ok.1 hcompiled
      obtain ⟨_, _, hcompiled⟩ := except_bind_ok.1 hcompiled
      cases hcompiled
      exact compileSteps_mem hown
  intro i hi
  obtain ⟨n, hn, rfl⟩ := List.getElem_of_mem hi
  simp only [List.length_zipWith, List.length_map, min_self] at hn
  rw [List.getElem_zipWith, List.getElem_map]
  exact hall _ (List.getElem_mem hn)

/-- The work items that a stage is compiled to are in the table. -/
theorem mem_compiled (h : CompiledFor (runtime workflow items) run result) :
    ∀ i ∈ result.workItems, ∃ entry ∈ items, i.workItem = entry.2 := by
  obtain ⟨_, hworkflow, ⟨outputs, k, codeVersion, h⟩ | ⟨stages, h⟩⟩ := h
  · cases hworkflow
    obtain ⟨_, _, h⟩ := except_bind_ok.1 h
    obtain ⟨stages, _, h⟩ := except_bind_ok.1 h
    obtain ⟨compiled, hcompiled, h⟩ := except_bind_ok.1 h
    obtain ⟨admitted, hadmitted, h⟩ := except_bind_ok.1 h
    cases h
    exact compileAdmitted_mem (except_bind_ok.2 ⟨compiled, hcompiled, hadmitted⟩)
  · cases hworkflow
    unfold compileInitialStage at h
    split at h
    · obtain ⟨_, _, h⟩ := except_bind_ok.1 h
      cases h
    · obtain ⟨stages', _, h⟩ := except_bind_ok.1 h
      obtain ⟨compiled, hcompiled, h⟩ := except_bind_ok.1 h
      obtain ⟨admitted, hadmitted, h⟩ := except_bind_ok.1 h
      cases h
      exact compileAdmitted_mem (except_bind_ok.2 ⟨compiled, wrapError_ok.1 hcompiled, hadmitted⟩)

/-- **A run of plain work items** may be submitted. -/
theorem admissible (hplain : ∀ entry ∈ items, entry.2.type ≠ .assetMaterialize ∧ entry.2.dependsOn = [])
    (hkeys : (items.map (·.1)).Nodup) : Admissible (runtime workflow items) u run where
  fresh := rfl
  kind result h i hi _ _ _ htype := by
    obtain ⟨entry, hentry, heq⟩ := mem_compiled h i hi
    exact absurd (heq ▸ htype) (hplain entry hentry).1
  materialize result h i hi _ := by
    obtain ⟨entry, hentry, heq⟩ := mem_compiled h i hi
    rw [heq]
    exact (hplain entry hentry).2
  visible result h codeVersion timestamp records hrecords hne := by
    obtain ⟨prepared, hitems, hrecords⟩ := except_bind_ok.1 hrecords
    cases hrecords
    have hprepared : List.Forall₂ (PreparedFrom (runtime workflow items) run.id) result.workItems prepared :=
      prepareItems_ok (lawful hkeys) (o := provenance run.id result.workflowId codeVersion result.workItems)
        (fun _ => rfl) hitems
    have hall : ∀ p ∈ prepared, p.payload.type ≠ .assetMaterialize ∧ p.payload.dependsOn = [] := fun p hp => by
      obtain ⟨i, hi, hfrom⟩ := exists_compiled hprepared hp
      obtain ⟨entry, hentry, heq⟩ := mem_compiled h i hi
      obtain ⟨_, _, item, hitem, _, _, hdeps⟩ := hfrom.row
      rw [hfrom.type, hfrom.payload.unique hitem, hdeps, heq, (hplain entry hentry).2]
      exact ⟨(hplain entry hentry).1, rfl⟩
    obtain ⟨x, hx⟩ := List.exists_mem_of_ne_nil _ hne
    obtain ⟨p, hp, _⟩ := List.mem_map.1 hx
    obtain ⟨last, hlast⟩ := exists_preparedById hp
    have hmem := (preparedById_mem hlast).1
    have honce : isQueuedAtOnce prepared p = true := by
      simp [isQueuedAtOnce, hlast, (hall last hmem).2, hasCurrentStageDependency]
    have hmember : (preparedById prepared p.record.id).bind (·.membership) =
        some ⟨last.record.stageIndex, last.stepIndex, last.record.id, last.record.workItemIndex⟩ := by
      rw [hlast]
      exact if_neg (hall last hmem).1
    exact List.ne_nil_of_mem (List.mem_filterMap.2 ⟨p, List.mem_filter.2 ⟨hp, honce⟩, hmember⟩)
  dependsOn _ result h i hi j hj _ := by
    obtain ⟨entry, hentry, heq⟩ := mem_compiled h i hi
    obtain ⟨entry', hentry', heq'⟩ := mem_compiled h j hj
    rw [heq, heq', (hplain entry hentry).2, (hplain entry' hentry').2]

/-- A run of the small deployment whose handlers take turns. -/
theorem orderly (hplain : ∀ entry ∈ items, entry.2.type ≠ .assetMaterialize ∧ entry.2.dependsOn = [])
    (hkeys : (items.map (·.1)).Nodup) {moves : List SystemMove}
    (hturns : ∀ x ∈ System.steps (runtime workflow items) moves,
      Pool.Exclusive { discipline (runtime workflow items) True v with admits := fun _ => True } x.1 x.2.1)
    (hanswered : (System.after (runtime workflow items) moves).Answered Good) :
    Orderly (runtime workflow items) u v moves := by
  refine ⟨fun x hx => ?_, hanswered⟩
  have hturn := hturns x hx
  obtain ⟨pool, move, pool'⟩ := x
  cases move with
  | env b => exact hturn
  | spawn request =>
    cases request with
    | submit submission => exact admissible hplain hkeys
    | complete _ _ | fail _ _ => exact trivial
  | advance n i => exact hturn

end Sample

end GoEtl.Controller
