import GoEtl.Text.Bytes

/-!
# Slash paths

`path.Clean` and `filepath.Join`, where the separator is the slash. A path is its segments and whether it is rooted;
cleaning drops empty segments and dots, and lets two dots cancel the segment before them.

A segment is *ordinary* if it is none of these; ordinary segments are kept as they are, so that joining ordinary
segments to a clean path appends them (`join_segments`).
-/

namespace GoEtl.Text

/-- The byte `/`. -/
def slash : UInt8 := 47

/-- The segment `.`. -/
def dot : Bytes := bytes "."

/-- The segment `..`. -/
def dotDot : Bytes := bytes ".."

/-- One round of `Clean`, from the segments that are done. -/
def cleanStep (rooted : Bool) (done : List Bytes) (segment : Bytes) : List Bytes :=
  if segment = [] ∨ segment = dot then done
  else if segment = dotDot then
    match done.getLast? with
    | none => if rooted then [] else [dotDot]
    | some last => if last = dotDot then done ++ [dotDot] else done.dropLast
  else done ++ [segment]

/-- The segments of a clean path. -/
def cleanSegments (rooted : Bool) (segments : List Bytes) : List Bytes := segments.foldl (cleanStep rooted) []

/-- A path. -/
structure SlashPath where
  rooted : Bool
  segments : List Bytes
  deriving DecidableEq

/-- `Clean`. -/
def cleanPath (value : Bytes) : SlashPath :=
  let rooted := value.head? == some slash
  ⟨rooted, cleanSegments rooted (value.splitOn slash)⟩

/-- `Join` of a path and further elements. -/
def SlashPath.join (path : SlashPath) (elements : List Bytes) : SlashPath :=
  ⟨path.rooted, cleanSegments path.rooted (path.segments ++ elements.flatMap (·.splitOn slash))⟩

/-- The text of a clean path that is not rooted and not empty. -/
def joinSegments (segments : List Bytes) : Bytes := [slash].intercalate segments

/-! ### Splitting -/

theorem not_mem_of_mem_splitOn {α : Type*} [DecidableEq α] {separator : α} {s segment : List α}
    (h : segment ∈ s.splitOn separator) : separator ∉ segment := by
  induction s generalizing segment with
  | nil =>
    rw [List.splitOn_nil, List.mem_singleton] at h
    simp [h]
  | cons x s ih =>
    by_cases hx : x = separator
    · subst hx
      rw [show x :: s = [] ++ x :: s from rfl, List.splitOn_append_cons_self, List.splitOn_nil] at h
      rcases List.mem_append.1 h with h | h
      · simp [List.mem_singleton.1 h]
      · exact ih h
    · unfold List.splitOn at h ih
      rw [List.splitOnP_cons_eq_if_modifyHead, if_neg (by simpa using hx)] at h
      cases hsplit : s.splitOnP (· == separator) with
      | nil =>
        rw [hsplit] at h
        exact absurd h List.not_mem_nil
      | cons head tail =>
        rw [hsplit, List.modifyHead_cons, List.mem_cons] at h
        rw [hsplit] at ih
        rcases h with rfl | h
        · rw [List.mem_cons, not_or]
          exact ⟨fun heq => hx heq.symm, ih List.mem_cons_self⟩
        · exact ih (List.mem_cons_of_mem head h)

/-! ### Ordinary segments -/

/-- The segment is kept by `Clean` as it is. -/
def Ordinary (segment : Bytes) : Prop := segment ≠ [] ∧ segment ≠ dot ∧ segment ≠ dotDot

instance (segment : Bytes) : Decidable (Ordinary segment) := inferInstanceAs (Decidable (_ ∧ _ ∧ _))

/-- An ordinary segment without slash. -/
def IsName (segment : Bytes) : Prop := Ordinary segment ∧ slash ∉ segment

instance (segment : Bytes) : Decidable (IsName segment) := inferInstanceAs (Decidable (_ ∧ _))

theorem IsName.splitOn {segment : Bytes} (h : IsName segment) : segment.splitOn slash = [segment] :=
  List.splitOn_eq_singleton h.2

variable {rooted : Bool} {done segments : List Bytes}

theorem cleanStep_ordinary {segment : Bytes} (h : Ordinary segment) :
    cleanStep rooted done segment = done ++ [segment] := by
  unfold cleanStep
  rw [if_neg (by simp [h.1, h.2.1]), if_neg h.2.2]

theorem foldl_ordinary (h : ∀ segment ∈ segments, Ordinary segment) :
    segments.foldl (cleanStep rooted) done = done ++ segments := by
  induction segments generalizing done with
  | nil => simp
  | cons segment segments ih =>
    rw [List.forall_mem_cons] at h
    rw [List.foldl_cons, cleanStep_ordinary h.1, ih h.2, List.append_assoc, List.singleton_append]

/-- Without double dots, cleaning drops empty segments and dots. -/
theorem foldl_of_not_mem (h : dotDot ∉ segments) :
    segments.foldl (cleanStep rooted) done = done ++ segments.filter fun segment => decide (Ordinary segment) := by
  induction segments generalizing done with
  | nil => simp
  | cons segment segments ih =>
    rw [List.mem_cons, not_or] at h
    rw [List.foldl_cons, ih h.2]
    by_cases hsegment : Ordinary segment
    · rw [cleanStep_ordinary hsegment]
      simp [hsegment]
    · have hskip : segment = [] ∨ segment = dot := by
        by_contra hnot
        rw [not_or] at hnot
        exact hsegment ⟨hnot.1, hnot.2, fun heq => h.1 heq.symm⟩
      rw [cleanStep, if_pos hskip]
      simp [hsegment]

/-- A name with an extension is a name. -/
theorem IsName.append {segment extension : Bytes} (h : IsName segment) (hlong : 2 ≤ extension.length)
    (hslash : slash ∉ extension) : IsName (segment ++ extension) := by
  have hlength : 3 ≤ (segment ++ extension).length := by
    have := List.length_pos_iff.2 h.1.1
    rw [List.length_append]
    omega
  refine ⟨⟨?_, ?_, ?_⟩, ?_⟩
  · intro heq
    rw [heq] at hlength
    exact absurd hlength (by decide)
  · intro heq
    rw [heq] at hlength
    exact absurd hlength (by decide)
  · intro heq
    rw [heq] at hlength
    exact absurd hlength (by decide)
  · rw [List.mem_append, not_or]
    exact ⟨h.2, hslash⟩

/-! ### Clean paths -/

/-- The segments of a clean path: ordinary ones, after double dots if the path is not rooted. -/
def IsClean (rooted : Bool) (segments : List Bytes) : Prop :=
  ∃ ups names, segments = List.replicate ups dotDot ++ names ∧ (∀ name ∈ names, Ordinary name) ∧
    (rooted = true → ups = 0)

theorem IsClean.cleanStep (h : IsClean rooted done) (segment : Bytes) : IsClean rooted (cleanStep rooted done segment) := by
  obtain ⟨ups, names, rfl, hnames, hups⟩ := h
  unfold Text.cleanStep
  split
  · exact ⟨ups, names, rfl, hnames, hups⟩
  · rename_i hskip
    split
    · rcases List.eq_nil_or_concat names with rfl | ⟨init, last, rfl⟩
      · rw [List.append_nil]
        cases ups with
        | zero => cases rooted with
          | true => exact ⟨0, [], rfl, hnames, fun _ => rfl⟩
          | false => exact ⟨1, [], rfl, hnames, fun h => by cases h⟩
        | succ ups =>
          have hlast : (List.replicate (ups + 1) dotDot).getLast? = some dotDot := by
            rw [List.replicate_succ', List.getLast?_concat]
          simp only [hlast, if_true]
          exact ⟨ups + 2, [], by rw [List.append_nil, List.replicate_succ' (n := ups + 1)], hnames, fun h => by
            cases hups h⟩
      · have hlast : (List.replicate ups dotDot ++ init.concat last).getLast? = some last := by
          rw [List.concat_eq_append, ← List.append_assoc, List.getLast?_concat]
        have hordinary : Ordinary last := hnames last (by simp)
        simp only [hlast, if_neg hordinary.2.2]
        refine ⟨ups, init, ?_, fun name hname => hnames name (by simp [hname]), hups⟩
        rw [List.concat_eq_append, ← List.append_assoc, List.dropLast_concat]
    · rename_i hdots
      have hordinary : Ordinary segment := ⟨fun h => hskip (.inl h), fun h => hskip (.inr h), hdots⟩
      refine ⟨ups, names ++ [segment], by simp, ?_, hups⟩
      rw [List.forall_mem_append]
      exact ⟨hnames, by simpa using hordinary⟩

theorem isClean_cleanSegments (rooted : Bool) (segments : List Bytes) : IsClean rooted (cleanSegments rooted segments) := by
  have hfold : ∀ done, IsClean rooted done → IsClean rooted (segments.foldl (Text.cleanStep rooted) done) := by
    induction segments with
    | nil => exact fun _ => id
    | cons segment segments ih => exact fun done h => ih _ (h.cleanStep segment)
  exact hfold [] ⟨0, [], rfl, by simp, fun _ => rfl⟩

/-- Double dots at the beginning of a path that is not rooted are kept. -/
theorem foldl_ups (done ups : ℕ) : (List.replicate ups dotDot).foldl (Text.cleanStep false)
    (List.replicate done dotDot) = List.replicate (done + ups) dotDot := by
  induction ups generalizing done with
  | zero => rfl
  | succ ups ih =>
    have hstep : Text.cleanStep false (List.replicate done dotDot) dotDot = List.replicate (done + 1) dotDot := by
      cases done with
      | zero => rfl
      | succ done =>
        unfold Text.cleanStep
        have hlast : (List.replicate (done + 1) dotDot).getLast? = some dotDot := by
          rw [List.replicate_succ', List.getLast?_concat]
        rw [if_neg (by decide), if_pos rfl]
        simp only [hlast, if_true]
        rw [List.replicate_succ' (n := done + 1)]
    rw [List.replicate_succ, List.foldl_cons, hstep, ih]
    congr 1
    omega

theorem IsClean.cleanSegments (h : IsClean rooted segments) : cleanSegments rooted segments = segments := by
  obtain ⟨ups, names, rfl, hnames, hups⟩ := h
  unfold Text.cleanSegments
  rw [List.foldl_append, foldl_ordinary hnames]
  congr 1
  cases rooted with
  | true =>
    rw [hups rfl]
    rfl
  | false =>
    have hfold := foldl_ups 0 ups
    rwa [Nat.zero_add, List.replicate_zero] at hfold

/-- **Joining ordinary segments appends them.** -/
theorem join_segments {path : SlashPath} {elements : List Bytes} (hpath : IsClean path.rooted path.segments)
    (helements : ∀ segment ∈ elements.flatMap (·.splitOn slash), Ordinary segment) :
    (path.join elements).segments = path.segments ++ elements.flatMap (·.splitOn slash) := by
  have hself : path.segments.foldl (cleanStep path.rooted) [] = path.segments := hpath.cleanSegments
  show cleanSegments path.rooted _ = _
  rw [Text.cleanSegments, List.foldl_append, hself, foldl_ordinary helements]

/-- Joining names appends them. -/
theorem join_names {path : SlashPath} {names : List Bytes} (hpath : IsClean path.rooted path.segments)
    (hnames : ∀ name ∈ names, IsName name) : (path.join names).segments = path.segments ++ names := by
  have hflat : names.flatMap (·.splitOn slash) = names := by
    rw [List.flatMap_congr fun name hname => (hnames name hname).splitOn]
    exact List.flatMap_singleton' names
  rw [join_segments hpath (by rw [hflat]; exact fun name hname => (hnames name hname).1), hflat]

theorem isClean_join (path : SlashPath) (elements : List Bytes) :
    IsClean (path.join elements).rooted (path.join elements).segments :=
  isClean_cleanSegments path.rooted _

end GoEtl.Text
