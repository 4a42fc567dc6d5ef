import GoEtl.Text.SlashPath

/-!
# Roles and routes

`internal/controllerauth/policy.go`: which role may use which method on which path. A rule is for one exact path or for
a family of paths, a prefix and a suffix with an id between them. The first rule for the path and the method decides.
-/

namespace GoEtl.ControllerAuth

open Text

/-- `Role`. -/
inductive Role where
  | client
  | worker
  | admin
  deriving DecidableEq, Repr

/-- `Decision`. -/
inductive Decision where
  | allowed
  | publicAccess
  | denied
  | methodNotAllowed
  | notFound
  deriving DecidableEq, Repr

/-- `RouteClass`. -/
inductive RouteClass where
  | unknown
  | publicRoute
  | protectedRoute
  deriving DecidableEq, Repr

/-- `routePattern`, with `leading` for the field `prefix`. -/
structure RoutePattern where
  (exact leading suffix : Bytes)
  deriving DecidableEq

/-- The item that `match` reads between the prefix and the suffix. -/
def RoutePattern.item (pattern : RoutePattern) (path : Bytes) : Option Bytes :=
  between slash pattern.leading pattern.suffix path

/-- `match`. -/
def RoutePattern.matches (pattern : RoutePattern) (path : Bytes) : Bool :=
  if pattern.exact ≠ [] then path == pattern.exact else (pattern.item path).isSome

theorem RoutePattern.matches_exact {pattern : RoutePattern} {path : Bytes} (h : pattern.exact ≠ []) :
    pattern.matches path = true ↔ path = pattern.exact := by
  simp [RoutePattern.matches, h]

theorem RoutePattern.matches_family {pattern : RoutePattern} {path : Bytes} (h : pattern.exact = []) :
    pattern.matches path = (pattern.item path).isSome := by
  simp [RoutePattern.matches, h]

/-- `routeRule`. -/
structure RouteRule where
  method : Bytes
  route : RoutePattern
  isPublic : Bool
  roles : List Role
  deriving DecidableEq

/-- `Policy`. -/
structure Policy where
  rules : List RouteRule

/-- `http.MethodGet`. -/
def methodGet : Bytes := bytes "GET"

/-- `http.MethodPost`. -/
def methodPost : Bytes := bytes "POST"

/-- `publicExact`. -/
def publicExact (method path : Bytes) : RouteRule := ⟨method, ⟨path, [], []⟩, true, []⟩

/-- `roleExact`. -/
def roleExact (method path : Bytes) (roles : List Role) : RouteRule := ⟨method, ⟨path, [], []⟩, false, roles⟩

/-- `roleFamily`. -/
def roleFamily (method leading suffix : Bytes) (roles : List Role) : RouteRule :=
  ⟨method, ⟨[], leading, suffix⟩, false, roles⟩

/-- `ControllerPolicy`. -/
def controllerPolicy : Policy where
  rules := [
    publicExact methodGet (bytes "/healthz"),
    roleExact methodPost (bytes "/workflow") [.client, .admin],
    roleFamily methodGet (bytes "/workflow-runs/") (bytes "/source-bundle.zip") [.client, .worker, .admin],
    roleFamily methodGet (bytes "/submissions/") (bytes "/status") [.client, .admin],
    roleFamily methodGet (bytes "/submissions/") (bytes "/logs") [.client, .admin],
    roleExact methodPost (bytes "/work") [.client, .admin],
    roleExact methodGet (bytes "/work/next") [.worker, .admin],
    roleExact methodPost (bytes "/work/complete") [.worker, .admin],
    roleExact methodPost (bytes "/work/fail") [.worker, .admin],
    roleExact methodPost (bytes "/workers/register") [.worker, .admin],
    roleExact methodPost (bytes "/workers/heartbeat") [.worker, .admin],
    roleExact methodPost (bytes "/workers/stop") [.worker, .admin],
    roleExact methodGet (bytes "/status") [.client, .admin],
    roleExact methodGet (bytes "/observations/logs") [.client, .admin],
    roleExact methodPost (bytes "/shutdown") [.admin]]

/-- The loop of `Authorize`, with whether a rule for the path was met. The role of nobody is `none`. -/
def authorizeFrom (method path : Bytes) (role : Option Role) (matchedPath : Bool) : List RouteRule → Decision
  | [] => if matchedPath then .methodNotAllowed else .notFound
  | rule :: rules =>
    if !rule.route.matches path then authorizeFrom method path role matchedPath rules
    else if method ≠ rule.method then authorizeFrom method path role true rules
    else if rule.isPublic then .publicAccess
    else if rule.roles.any (some · == role) then .allowed
    else .denied

/-- `Authorize`. -/
def Policy.authorize (policy : Policy) (method path : Bytes) (role : Option Role) : Decision :=
  authorizeFrom method path role false policy.rules

/-- The loop of `Classify`. -/
def classifyFrom (path : Bytes) (class_ : RouteClass) : List RouteRule → RouteClass
  | [] => class_
  | rule :: rules =>
    if !rule.route.matches path then classifyFrom path class_ rules
    else if rule.isPublic then .publicRoute
    else classifyFrom path .protectedRoute rules

/-- `Classify`. -/
def Policy.classify (policy : Policy) (path : Bytes) : RouteClass := classifyFrom path .unknown policy.rules

/-! ### What the policy gives -/

/-- The rule is for this method and this path. -/
def RouteRule.Covers (rule : RouteRule) (method path : Bytes) : Prop :=
  rule.route.matches path = true ∧ rule.method = method

instance (rule : RouteRule) (method path : Bytes) : Decidable (rule.Covers method path) :=
  inferInstanceAs (Decidable (_ ∧ _))

/-- The policy gives the role the method on the path: the first rule for them names the role. -/
def Policy.Gives (policy : Policy) (role : Role) (method path : Bytes) : Prop :=
  ∃ rule, policy.rules.find? (fun rule => decide (rule.Covers method path)) = some rule ∧
    rule.isPublic = false ∧ role ∈ rule.roles

/-- Anybody may use the method on the path. -/
def Policy.IsOpen (policy : Policy) (method path : Bytes) : Prop :=
  ∃ rule, policy.rules.find? (fun rule => decide (rule.Covers method path)) = some rule ∧ rule.isPublic = true

variable {method path : Bytes} {role : Option Role} {matchedPath : Bool} {rules : List RouteRule}

/-- The decision is made by the first rule for the method and the path. -/
theorem authorizeFrom_eq :
    authorizeFrom method path role matchedPath rules =
      match rules.find? fun rule => decide (rule.Covers method path) with
      | some rule =>
        if rule.isPublic then .publicAccess else if rule.roles.any (some · == role) then .allowed else .denied
      | none =>
        if matchedPath || rules.any (·.route.matches path) then .methodNotAllowed else .notFound := by
  induction rules generalizing matchedPath with
  | nil => cases matchedPath <;> rfl
  | cons rule rules ih =>
    unfold authorizeFrom
    by_cases hpath : rule.route.matches path = true
    · by_cases hmethod : rule.method = method
      · simp [RouteRule.Covers, hpath, hmethod]
      · simp [RouteRule.Covers, hpath, hmethod, Ne.symm hmethod, ih]
    · simp [RouteRule.Covers, hpath, ih]

theorem authorize_allowed {policy : Policy} {role : Role} :
    policy.authorize method path (some role) = .allowed ↔ policy.Gives role method path := by
  rw [Policy.authorize, authorizeFrom_eq, Policy.Gives]
  cases hfind : policy.rules.find? fun rule => decide (rule.Covers method path) with
  | none =>
    simp only [reduceCtorEq, false_and, exists_false, iff_false]
    split <;> simp
  | some rule =>
    cases hpublic : rule.isPublic
    · simp [hpublic]
    · simp [hpublic]

end GoEtl.ControllerAuth
