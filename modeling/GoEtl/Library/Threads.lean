import GoEtl.Library.Execution
import GoEtl.Library.Program

/-!
# Threads

A pool of programs that share a state, each taking its steps one at a time in any interleaving, and
an environment that changes the state in between. `Pool.apply` is one move of the pool: the
environment acts, a request starts a new thread, or a thread takes its next step.

A run is *exclusive* if its threads take turns, as if they shared a lock: a thread takes a step only
while no other thread is in progress, and while one is in progress the environment does only what may
go on beside it. A `Discipline` says what that is, what the environment may do at all, and which requests
come in. **`Pool.Sound.run`** is the rule for exclusive runs. If every program
keeps an invariant under the allowed interference, the invariant holds whenever no thread is in
progress, and every step of a thread is in the programs' guarantee. The rule is relative to a set of
good answers, for programs that keep the invariant unless they give a bad one.
-/

namespace GoEtl.Library

variable {σ ι ε α η ρ : Type}

/-- A program in a pool. -/
structure Thread (σ ι ε α : Type) where
  /-- Whether the program has taken a step. -/
  started : Bool
  /-- What is left of the program. -/
  prog : Prog σ ι ε α

/-- The thread has started and not ended. -/
def Thread.inProgress (t : Thread σ ι ε α) : Bool := t.started && !t.prog.ended

/-- The shared state and the threads. -/
structure Pool (σ ι ε α : Type) where
  /-- The shared state. -/
  state : σ
  /-- The threads, in the order of their requests. -/
  threads : List (Thread σ ι ε α)

namespace Pool

/-- What can happen next. -/
inductive Move (ι η ρ : Type) where
  /-- The environment acts. -/
  | env (e : η)
  /-- A request comes in. -/
  | spawn (request : ρ)
  /-- A thread takes a step with this input. -/
  | advance (n : ℕ) (input : ι)

section

-- How the environment acts, and which program serves a request.
variable (act : σ → η → σ) (serve : ρ → Prog σ ι ε α)

/-- The pool after a move. A thread that is not there or has ended takes no step. -/
def apply (pool : Pool σ ι ε α) : Move ι η ρ → Pool σ ι ε α
  | .env e => { pool with state := act pool.state e }
  | .spawn request => { pool with threads := pool.threads ++ [⟨false, serve request⟩] }
  | .advance n input =>
    match pool.threads[n]? with
    | some ⟨_, .step change next⟩ =>
      ⟨change input pool.state, pool.threads.set n ⟨true, next input pool.state⟩⟩
    | _ => pool

end

/-- No thread is in progress. -/
def Quiet (pool : Pool σ ι ε α) : Prop := ∀ t ∈ pool.threads, t.inProgress = false

/-- What the environment may do and ask for. -/
structure Discipline (σ η ρ : Type) where
  /-- What it may do while a thread is in progress. -/
  beside : η → Prop
  /-- What it may do in a state. -/
  allowed : σ → η → Prop
  /-- The requests that it may make. -/
  admits : ρ → Prop

/-- A move that keeps the discipline and leaves the threads to take turns. -/
def Exclusive (d : Discipline σ η ρ) (pool : Pool σ ι ε α) : Move ι η ρ → Prop
  | .env e => (d.beside e ∨ pool.Quiet) ∧ d.allowed pool.state e
  | .spawn request => d.admits request
  | .advance n _ => ∀ t ∈ pool.threads.eraseIdx n, t.inProgress = false

/-- Every thread that has ended gave a good answer. -/
def Answered (good : Except ε α → Prop) (pool : Pool σ ι ε α) : Prop :=
  ∀ t ∈ pool.threads, t.started = true → ∀ r, t.prog.result = some r → good r

instance (pool : Pool σ ι ε α) : Decidable pool.Quiet := List.decidableBAll _ _

instance (d : Discipline σ η ρ) [DecidablePred d.beside] [∀ s e, Decidable (d.allowed s e)] [DecidablePred d.admits]
    (pool : Pool σ ι ε α) (m : Move ι η ρ) : Decidable (Exclusive d pool m) :=
  match m with
  | .env e => inferInstanceAs (Decidable ((d.beside e ∨ pool.Quiet) ∧ d.allowed pool.state e))
  | .spawn request => inferInstanceAs (Decidable (d.admits request))
  | .advance n _ => inferInstanceAs (Decidable (∀ t ∈ pool.threads.eraseIdx n, t.inProgress = false))

instance (good : Except ε α → Prop) [DecidablePred good] (pool : Pool σ ι ε α) : Decidable (pool.Answered good) :=
  decidable_of_iff (∀ t ∈ pool.threads, t.started = true → ∀ r ∈ t.prog.result, good r) Iff.rfl

/-- The invariant of a pool whose threads take turns. -/
structure Sound (I : σ → Prop) (R G : σ → σ → Prop) (good : Except ε α → Prop) (pool : Pool σ ι ε α) :
    Prop where
  /-- Between the turns the invariant holds. -/
  quiet : pool.Quiet → I pool.state
  /-- The thread in progress goes on safely. -/
  running : ∀ t ∈ pool.threads, t.inProgress = true →
    t.prog.Safe R G (fun a s => good (.ok a) → I s) (fun e s => good (.error e) → I s) pool.state
  /-- A thread that has not started will be safe. -/
  waiting : ∀ t ∈ pool.threads, t.started = false → ∀ s, I s →
    t.prog.Safe R G (fun a s => good (.ok a) → I s) (fun e s => good (.error e) → I s) s

variable {act : σ → η → σ} {serve : ρ → Prog σ ι ε α} {d : Discipline σ η ρ} {I : σ → Prop}
  {R G : σ → σ → Prop} {good : Except ε α → Prop} {pool : Pool σ ι ε α}

variable {n : ℕ}

/-- A thread that takes a step and its program are found at its number. -/
theorem apply_advance {input : ι} {started : Bool} {change : ι → σ → σ} {next : ι → σ → Prog σ ι ε α}
    (h : pool.threads[n]? = some ⟨started, .step change next⟩) :
    apply act serve pool (.advance n input) =
      ⟨change input pool.state, pool.threads.set n ⟨true, next input pool.state⟩⟩ := by
  simp only [apply, h]

/-- A move of a thread is a step of its program, or nothing. -/
theorem apply_advance_cases (act : σ → η → σ) (serve : ρ → Prog σ ι ε α) (pool : Pool σ ι ε α) (n : ℕ)
    (input : ι) :
    apply act serve pool (.advance n input) = pool ∨
      ∃ started change next, pool.threads[n]? = some ⟨started, .step change next⟩ := by
  simp only [apply]
  split
  · rename_i started change next h
    exact .inr ⟨started, change, next, h⟩
  · exact .inl rfl

/-- An answer that was given stays given. -/
theorem Answered.of_apply {m : Move ι η ρ} (h : (apply act serve pool m).Answered good) :
    pool.Answered good := by
  intro t ht hstarted r hr
  cases m with
  | env e => exact h t ht hstarted r hr
  | spawn request => exact h t (List.mem_append_left _ ht) hstarted r hr
  | advance n input =>
    rcases apply_advance_cases act serve pool n input with hsame | ⟨_, change, next, hn⟩
    · rw [hsame] at h
      exact h t ht hstarted r hr
    · rw [apply_advance hn] at h
      -- The thread has ended, so it is not the one that took the step.
      obtain ⟨m, hm⟩ := List.mem_iff_getElem?.1 ht
      have hne : n ≠ m := by
        rintro rfl
        rw [hn] at hm
        cases hm
        cases hr
      refine h t (List.mem_iff_getElem?.2 ⟨m, ?_⟩) hstarted r hr
      rw [List.getElem?_set_ne hne]
      exact hm

variable {moves : List (Move ι η ρ)}

theorem Answered.of_run (h : (run (apply act serve) pool moves).Answered good) : pool.Answered good := by
  induction moves generalizing pool with
  | nil => exact h
  | cons m moves ih => exact (ih h).of_apply

/-- What a thread's turn finds: the thread is safe where it is. -/
theorem Sound.safe {input : ι} {t : Thread σ ι ε α} (h : pool.Sound I R G good)
    (hexclusive : Exclusive d pool (.advance n input : Move ι η ρ)) (ht : pool.threads[n]? = some t)
    (hstep : t.prog.ended = false) :
    t.prog.Safe R G (fun a s => good (.ok a) → I s) (fun e s => good (.error e) → I s) pool.state := by
  have hmem : t ∈ pool.threads := List.mem_iff_getElem?.2 ⟨n, ht⟩
  cases hstarted : t.started with
  | true => exact h.running t hmem (by simp [Thread.inProgress, hstarted, hstep])
  | false =>
    refine h.waiting t hmem hstarted pool.state (h.quiet fun u hu => ?_)
    obtain ⟨m, hm⟩ := List.mem_iff_getElem?.1 hu
    rcases eq_or_ne m n with rfl | hne
    · rw [ht] at hm
      cases hm
      simp [Thread.inProgress, hstarted]
    · exact hexclusive u (List.mem_eraseIdx_iff_getElem?.2 ⟨m, hne, hm⟩)

/-- Interference before a step is interference. -/
theorem safe_of_interference (htrans : ∀ s t u, R s t → R t u → R s u) {Q : α → σ → Prop}
    {E : ε → σ → Prop} {p : Prog σ ι ε α} {s t : σ} (h : p.Safe R G Q E s) (hp : p.ended = false)
    (hst : R s t) : p.Safe R G Q E t := by
  cases p with
  | ret a => cases hp
  | fail e => cases hp
  | step change next => exact fun i u htu => h i u (htrans s t u hst htu)

/-- The pool after a thread's step. -/
theorem Sound.set {p : Prog σ ι ε α} {s : σ} (h : pool.Sound I R G good)
    (hothers : ∀ t ∈ pool.threads.eraseIdx n, t.inProgress = false)
    (hanswered : Answered good ⟨s, pool.threads.set n ⟨true, p⟩⟩) (hn : n < pool.threads.length)
    (hp : p.Safe R G (fun a s => good (.ok a) → I s) (fun e s => good (.error e) → I s) s) :
    Sound I R G good ⟨s, pool.threads.set n ⟨true, p⟩⟩ := by
  have hself : (⟨true, p⟩ : Thread σ ι ε α) ∈ pool.threads.set n ⟨true, p⟩ :=
    List.mem_iff_getElem?.2 ⟨n, List.getElem?_set_self hn⟩
  -- A thread of the new pool is the one that took the step or an old one with another number.
  have hcases : ∀ t ∈ pool.threads.set n ⟨true, p⟩,
      t = ⟨true, p⟩ ∨ (t ∈ pool.threads ∧ t.inProgress = false) := by
    intro t ht
    obtain ⟨m, hm⟩ := List.mem_iff_getElem?.1 ht
    rcases eq_or_ne n m with rfl | hne
    · rw [List.getElem?_set_self hn] at hm
      cases hm
      exact .inl rfl
    · rw [List.getElem?_set_ne hne] at hm
      exact .inr ⟨List.mem_iff_getElem?.2 ⟨m, hm⟩, hothers t (List.mem_eraseIdx_iff_getElem?.2 ⟨m, hne.symm, hm⟩)⟩
  refine ⟨fun hquiet => ?_, fun t ht hprogress => ?_, fun t ht hstarted => ?_⟩
  · have hended := hquiet _ hself
    cases p with
    | ret a => exact hp (hanswered _ hself rfl _ rfl)
    | fail e => exact hp (hanswered _ hself rfl _ rfl)
    | step change next => cases hended
  · rcases hcases t ht with rfl | ⟨_, hnot⟩
    · exact hp
    · rw [hnot] at hprogress
      cases hprogress
  · rcases hcases t ht with rfl | ⟨hmem, _⟩
    · cases hstarted
    · exact h.waiting t hmem hstarted

/-- Every thread takes only steps in the relation. -/
def Within (G : σ → σ → Prop) (pool : Pool σ ι ε α) : Prop := ∀ t ∈ pool.threads, t.prog.Steps G

/-- A move of a pool whose threads take only steps in a relation: of the environment, of the relation or none. -/
theorem Within.apply (act : σ → η → σ) (hserve : ∀ request, (serve request).Steps G) (h : pool.Within G) (m : Move ι η ρ) :
    (Pool.apply act serve pool m).Within G ∧
      ((∃ e, m = .env e ∧ (Pool.apply act serve pool m).state = act pool.state e) ∨
        G pool.state (Pool.apply act serve pool m).state ∨ (Pool.apply act serve pool m).state = pool.state) := by
  cases m with
  | env e => exact ⟨h, .inl ⟨e, rfl, rfl⟩⟩
  | spawn request =>
    refine ⟨fun t ht => ?_, .inr (.inr rfl)⟩
    rcases List.mem_append.1 ht with ht | ht
    · exact h t ht
    · exact List.mem_singleton.1 ht ▸ hserve request
  | advance n input =>
    rcases apply_advance_cases act serve pool n input with hsame | ⟨_, change, next, hn⟩
    · rw [hsame]
      exact ⟨h, .inr (.inr rfl)⟩
    · rw [apply_advance hn]
      have hsteps := h _ (List.mem_iff_getElem?.2 ⟨n, hn⟩)
      refine ⟨fun t ht => ?_, .inr (.inl (hsteps pool.state input pool.state trivial).1)⟩
      rcases List.mem_or_eq_of_mem_set ht with ht | rfl
      · exact h t ht
      · exact .of_safe (hsteps pool.state input pool.state trivial).2

/-- **Every move of a run**, whatever the interleaving. -/
theorem Within.of_mem_trace (hserve : ∀ request, (serve request).Steps G) (h : pool.Within G)
    {x : Pool σ ι ε α × Move ι η ρ × Pool σ ι ε α} (hx : x ∈ trace (Pool.apply act serve) pool moves) :
    (∃ e, x.2.1 = .env e ∧ x.2.2.state = act x.1.state e) ∨ G x.1.state x.2.2.state ∨ x.2.2.state = x.1.state := by
  induction moves generalizing pool with
  | nil => cases hx
  | cons m moves ih =>
    obtain ⟨hnext, hmove⟩ := h.apply act hserve m
    rcases List.mem_cons.1 hx with rfl | hx
    · exact hmove
    · exact ih hnext hx

section Rule

-- The others' relation is a preorder, what may go on beside a thread is in it, every act that is allowed
-- keeps the invariant, and every program of a request that may be made keeps it under interference.
variable (hrefl : ∀ s, R s s) (htrans : ∀ s t u, R s t → R t u → R s u)
  (hbeside : ∀ s e, d.beside e → R s (act s e)) (hact : ∀ s e, d.allowed s e → I s → I (act s e))
  (hserve : ∀ request, d.admits request → ∀ s, I s →
    (serve request).Safe R G (fun a s => good (.ok a) → I s) (fun e s => good (.error e) → I s) s)

include hrefl htrans hbeside hact hserve

/-- One move of an exclusive run. -/
theorem Sound.apply {m : Move ι η ρ} (hexclusive : Exclusive d pool m) (h : pool.Sound I R G good)
    (hanswered : (apply act serve pool m).Answered good) :
    (Pool.apply act serve pool m).Sound I R G good := by
  cases m with
  | env e =>
    refine ⟨fun hquiet => hact _ e hexclusive.2 (h.quiet hquiet), fun t ht hprogress => ?_, h.waiting⟩
    have hended : t.prog.ended = false := by
      simpa using (Bool.and_eq_true_iff.1 hprogress).2
    rcases hexclusive.1 with hbesides | hquiet
    · exact safe_of_interference htrans (h.running t ht hprogress) hended (hbeside _ e hbesides)
    · rw [hquiet t ht] at hprogress
      cases hprogress
  | spawn request =>
    refine ⟨fun hquiet => h.quiet fun t ht => hquiet t (List.mem_append_left _ ht), fun t ht hprogress => ?_,
      fun t ht hstarted => ?_⟩
    · rcases List.mem_append.1 ht with ht | ht
      · exact h.running t ht hprogress
      · rw [List.mem_singleton.1 ht] at hprogress
        cases hprogress
    · rcases List.mem_append.1 ht with ht | ht
      · exact h.waiting t ht hstarted
      · rw [List.mem_singleton.1 ht]
        exact hserve request hexclusive
  | advance n input =>
    rcases apply_advance_cases act serve pool n input with hsame | ⟨_, change, next, hn⟩
    · rw [hsame]
      exact h
    · rw [apply_advance hn] at hanswered ⊢
      have hsafe := h.safe hexclusive hn rfl
      exact h.set hexclusive hanswered (List.getElem?_eq_some_iff.1 hn).1 (hsafe input _ (hrefl _)).2

omit htrans hbeside hact hserve in
/-- A step of a thread in an exclusive run is in the guarantee. -/
theorem Sound.guarantee {input : ι} (hexclusive : Exclusive d pool (.advance n input : Move ι η ρ))
    (h : pool.Sound I R G good) (hsame : ∀ s, G s s) :
    G pool.state (Pool.apply act serve pool (.advance n input)).state := by
  rcases apply_advance_cases act serve pool n input with hnone | ⟨_, change, next, hn⟩
  · rw [hnone]
    exact hsame _
  · rw [apply_advance hn]
    exact (h.safe hexclusive hn rfl input _ (hrefl _)).1

/-- **Exclusive runs**: a pool that is sound stays sound, after and before every move, as long as its threads take turns
and give good answers. -/
theorem Sound.run (h : pool.Sound I R G good)
    (hexclusive : ∀ x ∈ trace (Pool.apply act serve) pool moves, Exclusive d x.1 x.2.1)
    (hanswered : (Library.run (Pool.apply act serve) pool moves).Answered good) :
    (Library.run (Pool.apply act serve) pool moves).Sound I R G good ∧
      ∀ x ∈ trace (Pool.apply act serve) pool moves, x.1.Sound I R G good := by
  induction moves generalizing pool with
  | nil => exact ⟨h, fun x hx => absurd hx List.not_mem_nil⟩
  | cons m moves ih =>
    rw [trace, List.forall_mem_cons] at hexclusive
    have hfirst : (Pool.apply act serve pool m).Answered good := Answered.of_run hanswered
    obtain ⟨hlast, hbefore⟩ :=
      ih (h.apply hrefl htrans hbeside hact hserve hexclusive.1 hfirst) hexclusive.2 hanswered
    exact ⟨hlast, List.forall_mem_cons.2 ⟨h, hbefore⟩⟩

end Rule

end Pool

end GoEtl.Library
