import GoEtl.Library.Transaction
import GoEtl.Text.SlashPath

/-!
# Where admitted source is cached

`internal/reposource/path.go` and `cache_layout.go`: the files that a run was admitted with are kept below the cache
root, those of a local source in a directory of the run, those of a repository on GitHub in a directory of the
repository and the revision, which its runs share. The directories are named by the run's id, by the repository's
identity with its slashes replaced by underscores, and by the revision.

`Placed.filesRoot_inj` and `Placed.manifestPath_ne` say when two files have one place: only files of the same cache path
and the same origin do, provided that the ids and revisions are names and the keys of the repositories are different.
-/

namespace GoEtl.RepoSource

open Library Text

/-! ### Relative paths -/

/-- `unicode.IsLetter` of a byte, as a code point. -/
def isLetter (b : UInt8) : Bool :=
  (65 ≤ b && b ≤ 90) || (97 ≤ b && b ≤ 122) || b == 0xAA || b == 0xB5 || b == 0xBA || (0xC0 ≤ b && b ≤ 0xD6) ||
    (0xD8 ≤ b && b ≤ 0xF6) || 0xF8 ≤ b

/-- `hasDrivePrefix`. -/
def hasDrivePrefix : Bytes → Bool
  | first :: second :: _ => second == 58 && isLetter first
  | _ => false

/-- `validateSlashPath`. -/
def validateSlashPath (value : Bytes) : Except String Bytes :=
  if value = [] ∨ value = dot then .error "path is required"
  else if 92 ∈ value then .error "path must use forward slashes"
  else if value.head? = some slash ∨ hasDrivePrefix value then .error "path must be repository-relative"
  else if dotDot ∈ value.splitOn slash then .error "path must not contain .. segments"
  else
    let clean := cleanSegments false (value.splitOn slash)
    if clean = [] then .error "path must be repository-relative"
    else if 92 ∈ joinSegments clean then .error "path must use forward slashes"
    else if hasDrivePrefix (joinSegments clean) then .error "path must be repository-relative"
    else .ok (joinSegments clean)

/-- `ValidateRepositoryRelativePath`. -/
def validateRepositoryRelativePath : Bytes → Except String Bytes := validateSlashPath

/-- `ValidateCacheRelativePath`. -/
def validateCacheRelativePath : Bytes → Except String Bytes := validateSlashPath

/-! ### Sources and keys -/

/-- `ResolvedSourceReference`: the repository's identity and the revision, if there is one. -/
structure ResolvedSourceReference where
  repository : Bytes
  revisionId : Option Bytes
  deriving DecidableEq

/-- `isGitHubRepository`. -/
def isGitHubRepository (value : Bytes) : Bool := (bytes "github.com/").isPrefixOf value

/-- `safeCacheKeyPattern`: the bytes of a key. -/
def isSafe (b : UInt8) : Bool :=
  (65 ≤ b && b ≤ 90) || (97 ≤ b && b ≤ 122) || (48 ≤ b && b ≤ 57) || b == 46 || b == 95 || b == 45

/-- `safeCacheKey`. -/
def safeCacheKey (name : String) (value : Bytes) : Except String Bytes :=
  if value = [] then .error (name ++ " is required")
  else if !value.all isSafe then .error (name ++ " contains unsafe filename characters")
  else .ok value

/-- The byte `_`. -/
def underscore : UInt8 := 95

/-- `GitHubRepositoryKey`. -/
def gitHubRepositoryKey (repository : Bytes) : Except String Bytes :=
  if !isGitHubRepository repository then .error "github repository identity must start with github.com/"
  else if repository.any (· ∈ bytes "@:?") then
    .error "github repository identity must not contain credentials or URL punctuation"
  else
    match repository.splitOn slash with
    | [host, owner, name] =>
      if owner = [] ∨ name = [] then .error "github repository identity must be github.com/<owner>/<repo>"
      else safeCacheKey "github repository key" ([underscore].intercalate [host, owner, name])
    | _ => .error "github repository identity must be github.com/<owner>/<repo>"

/-! ### The layout -/

/-- `CacheLayout`: the cache root. -/
structure CacheLayout where
  root : SlashPath
  deriving DecidableEq

/-- `NewCacheLayout`. -/
def newCacheLayout (cacheRoot : Bytes) : Except String CacheLayout :=
  if cacheRoot = [] then .error "cache root is required" else .ok ⟨cleanPath cacheRoot⟩

/-- The paths of `CachePaths` that are used. -/
structure CachePaths where
  (filesRoot manifestPath : SlashPath)
  deriving DecidableEq

/-- `localPaths`. -/
def CacheLayout.localPaths (layout : CacheLayout) (runId : Bytes) : CachePaths :=
  let base := layout.root.join [bytes "local", bytes "runs", runId]
  ⟨base.join [bytes "files"], base.join [bytes "manifest.json"]⟩

/-- `githubPaths`. -/
def CacheLayout.githubPaths (layout : CacheLayout) (repository revisionId runId : Bytes) :
    Except String CachePaths := do
  let repositoryKey ← gitHubRepositoryKey repository
  let contentKey ← safeCacheKey "github content key" revisionId
  let repoBase := layout.root.join [bytes "github", bytes "repos", repositoryKey]
  let contentBase := repoBase.join [contentKey]
  pure ⟨contentBase.join [bytes "files"], contentBase.join [bytes "manifests", runId ++ bytes ".json"]⟩

/-- `PathsForManifest`, of the run and the source of a manifest. -/
def CacheLayout.pathsFor (layout : CacheLayout) (runId : Bytes) (source : ResolvedSourceReference) :
    Except String CachePaths :=
  if runId = [] then .error "run id is required"
  else if isGitHubRepository source.repository then
    match source.revisionId with
    | none | some [] => .error "github manifest requires revision id"
    | some revisionId => layout.githubPaths source.repository revisionId runId
  else .ok (layout.localPaths runId)

/-- `joinUnderRoot`: `filepath.Rel` begins with two dots exactly when the root is not the beginning of the path. -/
def joinUnderRoot (root : SlashPath) (child : Bytes) : Except String SlashPath :=
  let candidate := root.join [child]
  if root.segments <+: candidate.segments then .ok candidate else .error "cache path escapes files root"

/-- `FilePath`. -/
def CacheLayout.filePath (layout : CacheLayout) (runId : Bytes) (source : ResolvedSourceReference) (cachePath : Bytes) :
    Except String SlashPath := do
  let paths ← layout.pathsFor runId source
  let clean ← validateCacheRelativePath cachePath
  joinUnderRoot paths.filesRoot clean

/-! ### Clean relative paths -/

/-- A relative path as the validation returns it: segments that are kept, with slashes between them. -/
structure IsRelative (clean : Bytes) : Prop where
  ordinary : ∀ segment ∈ clean.splitOn slash, Ordinary segment
  backslash : 92 ∉ clean
  drive : hasDrivePrefix clean = false

theorem validateSlashPath_ok {value clean : Bytes} (h : validateSlashPath value = .ok clean) : IsRelative clean := by
  unfold validateSlashPath at h
  split at h
  · cases h
  split at h
  · cases h
  split at h
  · cases h
  split at h
  · cases h
  rename_i hdots
  dsimp only at h
  rw [cleanSegments, foldl_of_not_mem hdots, List.nil_append] at h
  split at h
  · cases h
  rename_i hne
  split at h
  · cases h
  rename_i hbackslash
  split at h
  · cases h
  rename_i hdrive
  cases h
  refine ⟨?_, hbackslash, by simpa using hdrive⟩
  have hslash : ∀ segment ∈ (value.splitOn slash).filter fun segment => decide (Ordinary segment), slash ∉ segment :=
    fun segment hsegment => not_mem_of_mem_splitOn (List.mem_filter.1 hsegment).1
  rw [joinSegments, List.splitOn_intercalate slash hslash hne]
  intro segment hsegment
  simpa using (List.mem_filter.1 hsegment).2

/-- A path that the validation returned passes it unchanged. -/
theorem IsRelative.validate {clean : Bytes} (h : IsRelative clean) : validateSlashPath clean = .ok clean := by
  have hself : (clean.splitOn slash).filter (fun segment => decide (Ordinary segment)) = clean.splitOn slash :=
    List.filter_eq_self.2 fun segment hsegment => by simpa using h.ordinary segment hsegment
  have hdots : dotDot ∉ clean.splitOn slash := fun hmem => (h.ordinary dotDot hmem).2.2 rfl
  have hempty : ¬ (clean = [] ∨ clean = dot) := by
    rintro (rfl | rfl)
    · exact (h.ordinary [] (by simp [List.splitOn_nil])).1 rfl
    · exact (h.ordinary dot (by decide)).2.1 rfl
  have hhead : ¬ (clean.head? = some slash ∨ hasDrivePrefix clean = true) := by
    rintro (hhead | hdrive)
    · obtain ⟨rest, rfl⟩ := List.head?_eq_some_iff.1 hhead
      have hmem : [] ∈ ([] ++ slash :: rest).splitOn slash := by
        rw [List.splitOn_append_cons_self]
        simp [List.splitOn_nil]
      exact (h.ordinary [] hmem).1 rfl
    · rw [h.drive] at hdrive
      cases hdrive
  have htext : joinSegments (clean.splitOn slash) = clean := List.intercalate_splitOn slash
  unfold validateSlashPath
  rw [if_neg hempty, if_neg h.backslash, if_neg hhead, if_neg hdots]
  dsimp only
  rw [cleanSegments, foldl_of_not_mem hdots, List.nil_append, hself, if_neg (List.splitOn_ne_nil slash clean), htext,
    if_neg h.backslash, if_neg (by simp [h.drive])]

/-- Two clean relative paths with the same segments are the same. -/
theorem eq_of_splitOn_eq {a b : Bytes} (h : a.splitOn slash = b.splitOn slash) : a = b := by
  have hjoined := congrArg [slash].intercalate h
  rwa [List.intercalate_splitOn, List.intercalate_splitOn] at hjoined

/-! ### Keys -/

theorem safeCacheKey_ok {name : String} {value key : Bytes} (h : safeCacheKey name value = .ok key) :
    key = value ∧ value ≠ [] ∧ slash ∉ value := by
  unfold safeCacheKey at h
  split at h
  · cases h
  split at h
  · cases h
  rename_i hne hsafe
  cases h
  refine ⟨rfl, hne, fun hslash => ?_⟩
  have hall : value.all isSafe = true := by simpa using hsafe
  exact absurd (List.all_eq_true.1 hall slash hslash) (by decide)

/-- The key of a repository is a name. -/
theorem gitHubRepositoryKey_isName {repository key : Bytes} (h : gitHubRepositoryKey repository = .ok key) : IsName key := by
  unfold gitHubRepositoryKey at h
  split at h
  · cases h
  split at h
  · cases h
  split at h
  swap
  · cases h
  split at h
  · cases h
  obtain ⟨rfl, hne, hslash⟩ := safeCacheKey_ok h
  rename_i host owner name _ _
  -- The key has underscores, so that it is not made of dots.
  have hmem : underscore ∈ [underscore].intercalate [host, owner, name] := by
    simp [List.intercalate]
  refine ⟨⟨hne, fun heq => ?_, fun heq => ?_⟩, hslash⟩
  · rw [heq] at hmem
    exact absurd hmem (by decide)
  · rw [heq] at hmem
    exact absurd hmem (by decide)

/-! ### Where the files are -/

/-- The directory of the files and the manifest's path, where the run's id and the revision are names. -/
inductive Placed (root : SlashPath) (runId : Bytes) (source : ResolvedSourceReference) (paths : CachePaths) : Prop where
  | perRun (hsource : isGitHubRepository source.repository = false)
      (hfiles : paths.filesRoot.segments = root.segments ++ [bytes "local", bytes "runs", runId, bytes "files"])
      (hmanifest : paths.manifestPath.segments = root.segments ++ [bytes "local", bytes "runs", runId, bytes "manifest.json"])
  | perRevision {revisionId key : Bytes} (hsource : isGitHubRepository source.repository = true)
      (hrevision : source.revisionId = some revisionId) (hkey : gitHubRepositoryKey source.repository = .ok key)
      (hfiles : paths.filesRoot.segments =
        root.segments ++ [bytes "github", bytes "repos", key, revisionId, bytes "files"])
      (hmanifest : paths.manifestPath.segments =
        root.segments ++ [bytes "github", bytes "repos", key, revisionId, bytes "manifests", runId ++ bytes ".json"])

section Places

variable {cacheRoot : Bytes} {layout : CacheLayout} {runId runId' : Bytes} {source source' : ResolvedSourceReference}
  {paths paths' : CachePaths}

theorem newCacheLayout_ok (h : newCacheLayout cacheRoot = .ok layout) : IsClean layout.root.rooted layout.root.segments := by
  unfold newCacheLayout at h
  split at h
  · cases h
  · cases h
    exact isClean_cleanSegments _ _

/-- The source's revision, where it has one, is neither dot nor double dot. -/
def ResolvedSourceReference.Fixed (source : ResolvedSourceReference) : Prop :=
  ∀ revisionId, source.revisionId = some revisionId → revisionId ≠ dot ∧ revisionId ≠ dotDot

instance : Decidable source.Fixed :=
  match h : source.revisionId with
  | none => isTrue fun _ heq => by rw [h] at heq; cases heq
  | some revisionId =>
    decidable_of_iff (revisionId ≠ dot ∧ revisionId ≠ dotDot) <| by
      unfold ResolvedSourceReference.Fixed
      rw [h]
      simp

/-- Names that are joined to a clean path, one after the other. -/
theorem join_join {path : SlashPath} {names more : List Bytes} (hpath : IsClean path.rooted path.segments)
    (hnames : ∀ name ∈ names, IsName name) (hmore : ∀ name ∈ more, IsName name) :
    ((path.join names).join more).segments = path.segments ++ names ++ more := by
  rw [join_names (isClean_join path names) hmore, join_names hpath hnames]

theorem pathsFor_ok (hroot : IsClean layout.root.rooted layout.root.segments) (hrun : IsName runId) (hsource : source.Fixed)
    (h : layout.pathsFor runId source = .ok paths) : Placed layout.root runId source paths := by
  unfold CacheLayout.pathsFor at h
  split at h
  · cases h
  split at h
  swap
  · rename_i hlocal
    cases h
    have hbase : ∀ name ∈ [bytes "local", bytes "runs", runId], IsName name := by
      simp only [List.forall_mem_cons, List.not_mem_nil, false_implies, implies_true, and_true]
      exact ⟨by decide, by decide, hrun⟩
    refine .perRun (by simpa using hlocal) ?_ ?_
    · exact (join_join hroot hbase (by decide)).trans (by simp)
    · exact (join_join hroot hbase (by decide)).trans (by simp)
  · rename_i hgithub
    split at h
    · cases h
    · cases h
    rename_i revisionId _ hrevision
    obtain ⟨key, hkey, h⟩ := except_bind_ok.1 h
    obtain ⟨contentKey, hcontent, h⟩ := except_bind_ok.1 h
    cases h
    obtain ⟨rfl, hne, hslash⟩ := safeCacheKey_ok hcontent
    have hname : IsName contentKey := ⟨⟨hne, hsource contentKey hrevision⟩, hslash⟩
    have hrepo : ∀ name ∈ [bytes "github", bytes "repos", key], IsName name := by
      simp only [List.forall_mem_cons, List.not_mem_nil, false_implies, implies_true, and_true]
      exact ⟨by decide, by decide, gitHubRepositoryKey_isName hkey⟩
    have hcontent : ∀ name ∈ [contentKey], IsName name := by simpa using hname
    have hmanifest : ∀ name ∈ [bytes "manifests", runId ++ bytes ".json"], IsName name := by
      simp only [List.forall_mem_cons, List.not_mem_nil, false_implies, implies_true, and_true]
      exact ⟨by decide, hrun.append (by decide) (by decide)⟩
    refine .perRevision hgithub hrevision hkey ?_ ?_
    · rw [join_names (isClean_join _ _) (by decide), join_join hroot hrepo hcontent]
      simp
    · rw [join_names (isClean_join _ _) hmanifest, join_join hroot hrepo hcontent]
      simp

theorem isClean_filesRoot (h : layout.pathsFor runId source = .ok paths) :
    IsClean paths.filesRoot.rooted paths.filesRoot.segments := by
  unfold CacheLayout.pathsFor at h
  split at h
  · cases h
  split at h
  · split at h
    · cases h
    · cases h
    obtain ⟨key, -, h⟩ := except_bind_ok.1 h
    obtain ⟨contentKey, -, h⟩ := except_bind_ok.1 h
    cases h
    exact isClean_join _ _
  · cases h
    exact isClean_join _ _

theorem joinUnderRoot_ok {root : SlashPath} {clean : Bytes} (hroot : IsClean root.rooted root.segments)
    (hclean : IsRelative clean) : ∃ path, joinUnderRoot root clean = .ok path ∧
      path.segments = root.segments ++ clean.splitOn slash := by
  have hjoin : (root.join [clean]).segments = root.segments ++ clean.splitOn slash := by
    rw [join_segments hroot (by simpa using hclean.ordinary)]
    simp
  refine ⟨root.join [clean], ?_, hjoin⟩
  unfold joinUnderRoot
  rw [if_pos (by rw [hjoin]; exact List.prefix_append _ _)]


/-- The place of a file is its cache path below the directory of the files. -/
theorem filePath_ok {cachePath : Bytes} {path : SlashPath} (hcache : IsRelative cachePath)
    (hpaths : layout.pathsFor runId source = .ok paths) (h : layout.filePath runId source cachePath = .ok path) :
    path.segments = paths.filesRoot.segments ++ cachePath.splitOn slash := by
  obtain ⟨joined, hjoin, hsegments⟩ := joinUnderRoot_ok (isClean_filesRoot hpaths) hcache
  unfold CacheLayout.filePath at h
  obtain ⟨_, hsame, h⟩ := except_bind_ok.1 h
  obtain rfl := Except.ok.inj (hpaths.symm.trans hsame)
  obtain ⟨clean, hvalid, h⟩ := except_bind_ok.1 h
  obtain rfl : cachePath = clean := Except.ok.inj (hcache.validate.symm.trans hvalid)
  rw [hjoin] at h
  cases h
  exact hsegments

/-- What the files of a source are shared between: nothing but the run, or the runs of one revision of a repository. -/
inductive Origin where
  | run (runId : Bytes)
  | revision (repository : Bytes) (revisionId : Option Bytes)
  deriving DecidableEq

/-- The origin of a run's files. -/
def originOf (runId : Bytes) (source : ResolvedSourceReference) : Origin :=
  if isGitHubRepository source.repository then .revision source.repository source.revisionId else .run runId

/-- **Two files have one place only below one origin**, and at the same cache path, provided that the keys of the
repositories tell them apart. -/
theorem Placed.filesRoot_inj {root : SlashPath} (h : Placed root runId source paths) (h' : Placed root runId' source' paths')
    (hkeys : ∀ key, gitHubRepositoryKey source.repository = .ok key → gitHubRepositoryKey source'.repository = .ok key →
      source.repository = source'.repository) {below below' : List Bytes}
    (heq : paths.filesRoot.segments ++ below = paths'.filesRoot.segments ++ below') :
    originOf runId source = originOf runId' source' ∧ below = below' := by
  rcases h with ⟨hsource, hfiles, _⟩ | ⟨hsource, hrevision, hkey, hfiles, _⟩ <;>
    rcases h' with ⟨hsource', hfiles', _⟩ | ⟨hsource', hrevision', hkey', hfiles', _⟩ <;>
    rw [hfiles, hfiles', List.append_assoc, List.append_assoc, List.append_cancel_left_eq] at heq
  · simp only [List.cons_append, List.nil_append, List.cons.injEq, true_and] at heq
    simp [originOf, hsource, hsource', heq.1, heq.2]
  · exact absurd (List.cons.inj heq).1 (by decide)
  · exact absurd (List.cons.inj heq).1 (by decide)
  · simp only [List.cons_append, List.nil_append, List.cons.injEq, true_and] at heq
    obtain ⟨rfl, rfl, hbelow⟩ := heq
    simp [originOf, hsource', hkeys _ hkey hkey', hrevision, hrevision', hbelow]

/-- A manifest is not in the way of a file. -/
theorem Placed.manifestPath_ne {root : SlashPath} (h : Placed root runId source paths)
    (h' : Placed root runId' source' paths') (below : List Bytes) :
    paths.manifestPath.segments ≠ paths'.filesRoot.segments ++ below := by
  intro heq
  rcases h with ⟨_, _, hmanifest⟩ | ⟨_, _, _, _, hmanifest⟩ <;> rcases h' with ⟨_, hfiles', _⟩ | ⟨_, _, _, hfiles', _⟩ <;>
    rw [hmanifest, hfiles', List.append_assoc, List.append_cancel_left_eq] at heq <;>
    simp only [List.cons_append, List.nil_append, List.cons.injEq, true_and] at heq
  · exact absurd heq.2.1 (by decide)
  · exact absurd heq.1 (by decide)
  · exact absurd heq.1 (by decide)
  · exact absurd heq.2.2.1 (by decide)

end Places

end GoEtl.RepoSource
