import GoEtl.Controller.Advancing

/-!
# Reports

What the handlers of completion and failure reports do in their turn. A completion leaves to do what its
work item sets off, and **`completePersistedWorkHandler_safe`** says that the handler has done it all when it
answers, unless it answers with a server error. A failure leaves nothing to do if the work item is a member.
A materialization is none, and the handler marks its run: **`failPersistedWorkHandler_safe`**.
-/

namespace GoEtl.Controller

open Library Persistence Text

variable {rt : Runtime} {u : Prop} {p : Pending} {w t : World} {runId : String}

/-! ### Answers -/

/-- The handler has answered, and not with a server error. -/
def Good : Except String Answer → Prop
  | .ok answer => ∀ text, answer ≠ .serverError text
  | .error _ => False

/-- The answer is no server error. -/
def isGood : Except String Answer → Bool
  | .ok (.serverError _) => false
  | .ok _ => true
  | .error _ => false

theorem isGood_iff (r : Except String Answer) : isGood r = true ↔ Good r := by
  rcases r with e | answer
  · simp [isGood, Good]
  · cases answer <;> simp [isGood, Good]

instance : DecidablePred Good := fun r => decidable_of_iff _ (isGood_iff r)

/-- What holds when a handler answers, if the answer is no server error. -/
abbrev Serves (G : World → World → Prop) (q : Ctl Answer) (I : World → Prop) (w : World) : Prop :=
  q.Safe Interference G (fun a t => Good (.ok a) → I t) (fun _ _ => True) w

variable {I : World → Prop}

theorem orServerError_serves {G : World → World → Prop} {q : Ctl Answer} (h : Serves G q I w) :
    Serves G (orServerError q) I w := by
  refine Prog.Safe.bind (Prog.Safe.attempt (h.mono (fun _ _ => id) fun e t _ => ?_))
  exact fun hgood => absurd rfl (hgood e)

/-! ### The attempt is completed -/

/-- What a completed work item leaves to do. -/
abbrev Pending.after (db : Store) (workItemId : String) : Pending := Pending.none.completing db {workItemId}

variable {request : CompleteAttemptRequest}

theorem completeAttemptAt_ok {i : Input} {db db' : Store} {result : Option (CompletedWorkRecord × Instant)}
    (h : completeAttemptAt request i db = .ok (result, db')) :
    (db = db' ∧ ∀ r, result = some r → r.1 ∈ db.completedWork) ∨
      ∃ running, Move db (.complete request running) db' ∧ ∃ now, result = some (request.completed running, now) := by
  obtain ⟨completed, hcomplete, rfl⟩ := Tx.bind_pure_ok.1 h
  rcases completeAttempt_move hcomplete with ⟨rfl, hold⟩ | ⟨running, hmove, rfl⟩
  · refine .inl ⟨rfl, fun r hr => ?_⟩
    obtain ⟨record, hrecord, rfl⟩ := Option.map_eq_some_iff.1 hr
    exact hold record hrecord
  · exact .inr ⟨running, hmove, i.now, rfl⟩

/-- A report leaves everything but the attempt. -/
theorem advanceStep_of_complete {running : RunningRow} {db' : Store} (h : Move w.db (.complete request running) db')
    : AdvanceStep rt u w { w with db := db' } := by
  have hdead : ∀ R, Dead w.db R rt → Dead db' R rt := fun R => Dead.carried (h.carried rfl)
  have hcompleted : ∀ id, IsCompleted w.db id → IsCompleted db' id := fun id hid => ((h.carried rfl).completed id).2 (.inl hid)
  cases h
  exact ⟨.of_same rfl rfl rfl (fun _ _ => id) (fun _ => id) hcompleted hdead, fun _ => id, rfl, fun _ => id⟩

/-- **The completion of an attempt**: what its work item sets off is pending. -/
theorem completeAttemptAt_safe (h : Settled rt u .none w) :
    (transaction (completeAttemptAt request)).Safe Interference (AdvanceStep rt u)
      (fun result t => Settled rt u .none t ∧ result = none ∨
        ∃ c now, result = some (c, now) ∧ Settled rt u (.after t.db c.workItemId) t ∧ IsCompleted t.db c.workItemId)
      (fun _ t => Settled rt u .none t) w := by
  refine transaction_safe AdvanceStep.refl ?_ fun _ _ => h.interference
  intro i t ht result db' hwrite
  replace h := h.interference ht
  rcases completeAttemptAt_ok hwrite with ⟨rfl, hold⟩ | ⟨running, hmove, now, rfl⟩
  · refine ⟨.refl t, ?_⟩
    cases result with
    | none => exact .inl ⟨h, rfl⟩
    | some r =>
      exact .inr ⟨r.1, r.2, rfl, h.mono (Pending.none_le _), r.1, hold r rfl, rfl⟩
  · have hcarried := hmove.carried rfl
    refine ⟨advanceStep_of_complete hmove, .inr ⟨_, now, rfl, ?_, (hcarried.completed _).2 (.inr rfl)⟩⟩
    have hafter : Pending.after db' running.workItemId = .after t.db running.workItemId := by
      simp only [Pending.after, Pending.completing, hcarried.members]
    show Settled rt u (.after db' running.workItemId) _
    rw [hafter]
    exact h.carried hcarried

/-! ### What the work item sets off -/

variable {completion : WorkCompletion}

section Completed

variable {x : WorkItemRecord}

theorem Shape.membership_of_item (h : Shape rt u w) (hx : x ∈ w.db.workItems)
    {m : WorkflowDependencyWorkItemRecord} (hm : m ∈ w.db.dependencyWorkItems) (hid : m.workItemId = x.id) :
    m.runId = x.runId ∧ m.stageIndex = x.stageIndex ∧ Ordinary rt x := by
  obtain ⟨s, _, hof, y, hy, hyid, hitem, hordinary⟩ := h.member m hm
  obtain rfl := item_eq hx hy (hid.symm.trans hyid.symm)
  exact ⟨hof.1.trans hitem.1.symm, hof.2.1.trans hitem.2.1.symm, hordinary⟩

theorem Pending.after_follow (h : Shape rt u w) (hx : x ∈ w.db.workItems) :
    ∀ a ∈ (Pending.after w.db x.id).follow, a = (x.runId, x.stageIndex) := by
  rintro a (ha | ⟨m, hm, hid, rfl⟩)
  · cases ha
  · obtain ⟨hrun, hstage, _⟩ := h.membership_of_item hx hm hid
    rw [hrun, hstage]

/-- Nothing is recorded of a completed materialization. -/
theorem Pending.after_materialize (h : Shape rt u w) (hx : x ∈ w.db.workItems) (hkind : ¬ Ordinary rt x) :
    { Pending.after w.db x.id with release := ∅ } ≤ .none := by
  refine ⟨?_, subset_rfl, ?_, subset_rfl, subset_rfl⟩
  all_goals
    rintro a (ha | ⟨m, hm, hid, _⟩)
    · exact ha
    · exact absurd (h.membership_of_item hx hm hid).2.2 hkind

theorem Shape.hasPlan_of_item (h : Shape rt u w) (hx : x ∈ w.db.workItems) : HasPlan w.db x.runId := by
  obtain ⟨s, hs, hof⟩ := h.item x hx
  obtain ⟨r, hr, hid⟩ := h.planned s hs
  exact ⟨⟨r, hr, hid.trans hof.1.symm⟩, s, hs, hof.1.symm⟩

theorem reported_after (h : Shape rt u w) (hx : x ∈ w.db.workItems) (hcompleted : IsCompleted w.db x.id) :
    Reported rt (.after w.db x.id) w x.runId x.id where
  completed := hcompleted
  queued := rfl
  follow m hm hid := .inr ⟨m, hm, hid, rfl⟩
  publish a ha := by
    rcases ha with ha | ⟨m, hm, hid, rfl⟩
    · cases ha
    · exact ⟨m, hm, hid, rfl⟩
  plan := h.hasPlan_of_item hx

theorem recordWorkItemDependency_records (hrt : rt.Lawful) (h : Settled rt u p w) {workItemId reason : String}
    {state : WorkItemMembershipState} :
    Records rt u (recordWorkItemDependency rt workItemId state reason) (fun _ t => Settled rt u p t)
      (fun _ t => Settled rt u p t) w := by
  refine Records.after_read (query_reads (Q := fun _ _ => True) fun _ _ => trivial) (fun _ _ => h.interference) ?_
  rintro (_ | x) t ht -
  · exact h.interference ht
  · exact recordWorkItemTerminalState_records hrt (h.interference ht)

theorem advanceRun_serves (hrt : rt.Lawful) {timestamp : String}
    (h : Settled rt u { p with starting := ∅, publish := ∅, queued := ∅ } w) (hx : x ∈ w.db.workItems)
    (hfollow : ∀ a ∈ p.follow, a = (x.runId, x.stageIndex)) (hrelease : ∀ a ∈ p.release, a.2 = x.id) :
    Serves (AdvanceStep rt u) (advanceRun rt completion x timestamp) (Settled rt u .none) w := by
  refine Prog.Safe.bind ((Records.runs (recordWorkItemDependency_records hrt h)).mono ?_ fun _ _ _ => trivial)
  rintro _ t₁ ⟨h₁, hframe⟩
  rw [← hframe.items] at hx
  refine Prog.Safe.bind ((Records.runs (enqueueReadyAssetMaterializeDependents_records hrt h₁ rfl rfl hx hrelease)).mono
    ?_ fun _ _ _ => trivial)
  rintro _ t₂ ⟨h₂, -⟩
  refine Prog.Safe.bind ((activateNextReadyWorkflowStage_safe hrt (h₂.mono ?_)).mono ?_ fun _ _ => id)
  · exact ⟨hfollow, subset_rfl, subset_rfl, subset_rfl, subset_rfl⟩
  · exact fun _ t₃ h₃ _ => h₃

theorem rejectOutput_serves (hrt : rt.Lawful) {cause : String} (h : Settled rt u p w) :
    Serves (AdvanceStep rt u) (rejectOutput rt x cause) I w := by
  refine Prog.Safe.bind (Prog.Safe.attempt ((Records.runs (recordWorkItemTerminalState_records hrt h)).mono ?_ ?_))
  · exact fun _ _ _ hgood => absurd rfl (hgood _)
  · exact fun _ _ _ hgood => absurd rfl (hgood _)

/-- The handler once the attempt is completed. -/
theorem afterCompletion_serves (hrt : rt.Lawful) {c : CompletedWorkRecord} {now : Instant}
    (h : Settled rt u (.after w.db c.workItemId) w) (hcompleted : IsCompleted w.db c.workItemId)
    (houtput : completion.outputJson ≠ "") :
    Serves (AdvanceStep rt u) (afterCompletion rt completion c now) (Settled rt u .none) w := by
  refine Reads.bind (query_reads (Q := fun found t => found = getWorkItem t.db c.workItemId) fun _ _ => rfl)
    AdvanceStep.refl (fun _ _ _ => trivial) ?_
  rintro _ t ht rfl
  have hafter : Pending.after t.db c.workItemId = .after w.db c.workItemId := by
    simp only [Pending.after, Pending.completing, ht.worked.members]
  replace h := h.interference ht
  rw [IsCompleted, ← ht.worked.completed] at hcompleted
  rw [← hafter] at h
  clear hafter ht
  cases hfound : getWorkItem t.db c.workItemId with
  | none => exact fun hgood => absurd rfl (hgood _)
  | some x =>
    obtain ⟨hx, hid⟩ := getWorkItem_mem hfound
    rw [← hid] at h hcompleted
    have hrelease : ∀ a ∈ (Pending.after t.db x.id).release, a.2 = x.id := by
      rintro a (ha | ha)
      · cases ha
      · exact ha
    simp only
    split
    · exact fun hgood => absurd rfl (hgood _)
    · rename_i payload hpayload
      split
      · rename_i htype
        have hkind : ¬ Ordinary rt x := by
          rintro ⟨item, hitem, hne⟩
          exact hne (HasPayload.unique hitem hpayload ▸ htype)
        refine Prog.Safe.bind ((Records.runs (enqueueReadyAssetMaterializeDependents_records hrt h rfl rfl hx
          hrelease)).mono ?_ fun _ _ _ => trivial)
        exact fun _ _ ht _ => ht.1.mono (Pending.after_materialize h.toShape hx hkind)
      · simp only [recordOutput, if_neg houtput]
        have hreported := reported_after h.toShape hx hcompleted
        refine Prog.Safe.bind (Prog.Safe.attempt ((Records.runs
          (recordCompletedWorkItemOutput_records hrt h hreported)).mono ?_ ?_))
        · rintro _ t₁ ⟨h₁, hframe⟩
          rw [← hframe.items] at hx
          exact advanceRun_serves hrt (p := .after t.db x.id) h₁ hx (Pending.after_follow h.toShape (hframe.items ▸ hx))
            hrelease
        · rintro cause t₁ ⟨h₁, -⟩
          exact rejectOutput_serves hrt h₁

end Completed

variable {received : Received}

/-- A request is made only of a report with an output. -/
theorem completeAttemptRequest_output (h : completeAttemptRequestFromCompletion rt received completion = .ok request) :
    completion.outputJson ≠ "" := by
  rintro hempty
  obtain ⟨_, _, h⟩ := except_bind_ok.1 h
  obtain ⟨output, houtput, h⟩ := except_bind_ok.1 h
  rw [hempty] at houtput
  obtain ⟨_, hrules, _⟩ := except_bind_ok.1 houtput
  simp [rules_ok, isBlank] at hrules

/-- **The handler of completion reports** leaves nothing to do, unless it answers with a server error. -/
theorem completePersistedWorkHandler_safe (hrt : rt.Lawful) (h : Settled rt u .none w) :
    Serves (AdvanceStep rt u) (completePersistedWorkHandler rt received completion) (Settled rt u .none) w := by
  unfold completePersistedWorkHandler
  split
  · exact fun _ => h
  · split
    · exact fun _ => h
    · rename_i request hrequest
      split
      · exact fun _ => h
      · refine Prog.Safe.bind (Prog.Safe.attempt ((completeAttemptAt_safe h).mono ?_ ?_))
        · rintro result t (⟨ht, rfl⟩ | ⟨c, now, rfl, ht, hcompleted⟩)
          · exact fun _ => ht
          · exact orServerError_serves (afterCompletion_serves hrt ht hcompleted (completeAttemptRequest_output hrequest))
        · exact fun e t ht _ => ht

/-! ### Failures -/

/-- A failed work item outside the set is no materialization, or its run is marked. -/
def Fallen (rt : Runtime) (except : Set String) (w : World) : Prop :=
  ∀ x ∈ w.db.workItems, IsFailed w.db x.id → x.id ∈ except ∨ Ordinary rt x ∨ Marked w.db x.runId rt

/-- What keeps the failed work and the marks keeps failed runs marked. -/
theorem Fallen.keeps {except : Set String} (h : Fallen rt except w) (hroot : Rooted w.db) (hk : Keeps rt w t) :
    Fallen rt except t := by
  rintro x hx ⟨r, hr, hid⟩
  rw [hk.failed] at hr
  -- What has failed was a work item before.
  obtain ⟨⟨y, hy, hyid⟩, _⟩ := hroot.failed r hr
  obtain rfl := item_eq hx (hk.items y hy) (hid.symm.trans hyid.symm)
  exact (h x hy ⟨r, hr, hid⟩).imp_right (Or.imp_right (hk.marked _))

theorem Interference.keeps (h : Interference w t) : Keeps rt w t := h.frame.keeps

/-- A handler that reports no failure leaves failed runs marked. -/
theorem Serves.fallen {q : Ctl Answer} (h : Serves (AdvanceStep rt u) q I w) (hroot : Rooted w.db) :
    Serves (HandlerStep rt u) q (fun t => I t ∧ (Fallen rt ∅ w → Fallen rt ∅ t)) w := by
  have hreach := Prog.Safe.reaches Keeps.refl Keeps.trans (fun _ _ ht => Interference.keeps ht) (fun _ _ ht => ht.2) h
  refine (hreach.weaken fun _ _ => And.left).mono ?_ fun _ _ _ => trivial
  exact fun _ t ht hgood => ⟨ht.1 hgood, fun hfallen => hfallen.keeps hroot ht.2⟩

theorem failAttempt_safe (h : Settled rt u .none w) {request : FailAttemptRequest} :
    (transaction fun i => failAttempt i.fk request).Safe Interference (HandlerStep rt u)
      (fun result t => Settled rt u .none t ∧
        (Fallen rt ∅ w → Fallen rt {id | ∃ failed, result = some failed ∧ failed.workItemId = id} t))
      (fun _ t => Settled rt u .none t ∧ (Fallen rt ∅ w → Fallen rt ∅ t)) w := by
  refine transaction_safe HandlerStep.refl ?_ fun _ t ht => ⟨h.interference ht, fun hf => hf.keeps h.rooted ht.keeps⟩
  intro i t ht result db' hwrite
  have hfallen : Fallen rt ∅ w → Fallen rt ∅ t := fun hf => hf.keeps h.rooted ht.keeps
  replace h := h.interference ht
  rcases failAttempt_move hwrite with ⟨rfl, _⟩ | ⟨running, hmove, rfl⟩
  · exact ⟨.refl t, h, fun hf x hx hfailed => (hfallen hf x hx hfailed).imp_left fun hnone => hnone.elim⟩
  · have hcarried := hmove.carried rfl
    have hsettled := h.carried hcarried
    have hdead : ∀ R, Dead t.db R rt → Dead db' R rt := fun R => Dead.carried hcarried
    rw [show (Event.fail request running).done = ∅ from rfl, Pending.completing_empty] at hsettled
    cases hmove with
    | fail hrunning hattempt howner hinsert =>
      refine ⟨.of_same rfl rfl rfl (fun _ _ => id) (fun _ => id) (fun _ => id) hdead, hsettled, fun hf x hx hfailed => ?_⟩
      rcases (Table.has_insert hinsert).1 hfailed with hfailed | hid
      · exact (hfallen hf x hx hfailed).imp_left fun hnone => hnone.elim
      · exact .inl ⟨_, rfl, hid⟩

/-- The run of a failed materialization is marked. -/
theorem failAssetMaterializeDependents_records (hrt : rt.Lawful) (h : Settled rt u p w) {x : WorkItemRecord}
    (hx : x ∈ w.db.workItems) {reason : String} :
    Records rt u (failAssetMaterializeDependents rt x reason)
      (fun _ t => Settled rt u p t ∧ (Ordinary rt x ∨ Marked t.db x.runId rt)) (fun _ t => Settled rt u p t) w := by
  refine Records.bind (Q := fun item t => t = w ∧ HasPayload rt x item) (E := fun _ t => t = w)
    (Prog.Safe.ofExcept (fun _ hitem => ⟨rfl, wrapError_ok.1 hitem⟩) fun _ _ => rfl) ?_ ?_
  · rintro _ _ _ rfl
    exact h
  rintro item w - ⟨rfl, hitem⟩
  split
  · refine (markWorkflowStageActivationFailed_records hrt h).mono (fun _ t ht => ⟨ht.1, .inr ?_⟩) fun _ _ => id
    exact ht.2 (h.hasPlan_of_item hx)
  · rename_i htype
    exact ⟨h, .inl ⟨item, hitem, htype⟩⟩

theorem afterFailure_serves (hrt : rt.Lawful) {failed : FailedWorkRecord} {error : String} (h : Settled rt u .none w) :
    Serves (HandlerStep rt u) (afterFailure rt failed error)
      (fun t => Settled rt u .none t ∧ (Fallen rt {failed.workItemId} w → Fallen rt ∅ t)) w := by
  refine Reads.bind (query_reads (Q := fun found t => found = getWorkItem t.db failed.workItemId) fun _ _ => rfl)
    HandlerStep.refl (fun _ _ _ => trivial) ?_
  rintro _ t ht rfl
  have hroot := h.rooted
  replace h := h.interference ht
  cases hfound : getWorkItem t.db failed.workItemId with
  | none => exact fun hgood => absurd rfl (hgood _)
  | some x =>
    obtain ⟨hx, hid⟩ := getWorkItem_mem hfound
    have hrecords : Records rt u (do
        failAssetMaterializeDependents rt x error
        recordWorkItemDependency rt failed.workItemId .failed error
        pure Answer.noContent)
        (fun _ t => Settled rt u .none t ∧ (Ordinary rt x ∨ Marked t.db x.runId rt)) (fun _ _ => True) t := by
      refine Records.bind (failAssetMaterializeDependents_records hrt h hx) (fun _ _ _ _ => trivial) ?_
      rintro _ t₁ - ⟨h₁, hmarked⟩
      refine Records.bind (recordWorkItemDependency_records hrt h₁) (fun _ _ _ _ => trivial) ?_
      exact fun _ t₂ hframe h₂ => ⟨h₂, hmarked.imp_right (hframe.marked _)⟩
    refine (hrecords.framed.weaken fun _ _ => And.left).mono ?_ fun _ _ _ => trivial
    rintro _ t₂ ⟨⟨h₂, hmarked⟩, hframe⟩ -
    refine ⟨h₂, fun hf y hy hfailed => ?_⟩
    rcases hf.keeps hroot (ht.keeps.trans _ _ _ hframe.keeps) y hy hfailed with hyid | hrest
    · obtain rfl := item_eq (hframe.items ▸ hy) hx ((show y.id = failed.workItemId from hyid).trans hid.symm)
      exact .inr hmarked
    · exact .inr hrest

/-- **The handler of failure reports** leaves nothing to do, and it marks the run of a materialization, unless it
answers with a server error. -/
theorem failPersistedWorkHandler_safe (hrt : rt.Lawful) {failure : WorkFailure} (h : Settled rt u .none w) :
    Serves (HandlerStep rt u) (failPersistedWorkHandler rt received failure)
      (fun t => Settled rt u .none t ∧ (Fallen rt ∅ w → Fallen rt ∅ t)) w := by
  unfold failPersistedWorkHandler
  split
  · exact fun _ => ⟨h, id⟩
  · refine Prog.Safe.bind (Prog.Safe.attempt ((failAttempt_safe h).mono ?_ ?_))
    · rintro (_ | failed) t ⟨ht, hfallen⟩
      · refine fun _ => ⟨ht, fun hf => ?_⟩
        simpa using hfallen hf
      · refine (orServerError_serves (afterFailure_serves hrt ht)).mono ?_ fun _ _ => id
        refine fun _ t' ht' hgood => ⟨(ht' hgood).1, fun hf => (ht' hgood).2 ?_⟩
        simpa using hfallen hf
    · exact fun e t ht _ => ht

end GoEtl.Controller
