import GoEtl.RepoSource.Cache

/-!
# Sequences of publications

Runs publish the source that they were admitted with into one cache, one after the other. A publication is the
manifest built from the reads of the admission, published with the same reads, as a submission does, or with reads of
the same files at another time, as the repair of a restarted controller does.

Every publication promises a hash for the places of its files. `Separate` is what keeps the promises of a
sequence from contradicting each other (`promises_agree`), and every publication fulfils its own and keeps the others'
(`publish_keeps`, `publish_fulfils`).
-/

namespace GoEtl.RepoSource

open Library Text

variable {Digest : Type}

/-- A publication: what the manifest is built from, and the reads that it is published with. -/
structure Publication (sha256 : Bytes → Digest) where
  runId : Bytes
  source : ResolvedSourceReference
  declared : List (DeclaredSourceFile Digest)
  (admitted reads : List (ReadFileResult sha256))

namespace Publication

variable {sha256 : Bytes → Digest}

/-- The manifest. -/
def manifest (p : Publication sha256) : Except SourceError (AdmittedSourceManifest Digest) :=
  buildAdmittedSourceManifest p.runId p.source p.declared p.admitted

/-- The files of the manifest. -/
def files (p : Publication sha256) : List (AdmittedSourceManifestFile Digest) :=
  match p.manifest with
  | .ok manifest => manifest.files
  | .error _ => []

/-- The bytes that were admitted for a source path. -/
def admittedBytes (p : Publication sha256) (sourcePath : Bytes) : Option Bytes :=
  match readsByPath p.admitted with
  | .ok byPath => (byPath.lookup sourcePath).map (·.data)
  | .error _ => none

/-- The publication's origin. -/
def origin (p : Publication sha256) : Origin := originOf p.runId p.source

end Publication

/-- The repositories have one key. -/
def sameKey (a b : Bytes) : Bool :=
  match gitHubRepositoryKey a, gitHubRepositoryKey b with
  | .ok key, .ok key' => key = key'
  | _, _ => false

/-- Publications that stay out of each other's way. -/
structure Separate {sha256 : Bytes → Digest} (publications : List (Publication sha256)) : Prop where
  /-- The run ids are names. -/
  runs : ∀ p ∈ publications, IsName p.runId
  /-- The revisions are not dots. -/
  revisions : ∀ p ∈ publications, p.source.Fixed
  /-- Repositories with one key are one repository. -/
  keys : ∀ p ∈ publications, ∀ q ∈ publications,
    sameKey p.source.repository q.source.repository = true → p.source.repository = q.source.repository
  /-- Within one run, or one revision of a repository, a cache path has one content. -/
  contents : ∀ p ∈ publications, ∀ q ∈ publications, p.origin = q.origin → ∀ file ∈ p.files, ∀ file' ∈ q.files,
    file.cachePath = file'.cachePath → file.rawSha256 = file'.rawSha256

section Sequences

variable [DecidableEq Digest] (encodings : SourceEncodings Digest)

/-- Build the manifest and publish it. -/
def Publication.publish (layout : CacheLayout) (p : Publication encodings.sha256) : Tx Files SourceError Unit := do
  let manifest ← Tx.ofExcept p.manifest
  publishAdmittedSource encodings layout manifest p.reads

/-- A sequence of publications that all succeed. -/
def publishAll (layout : CacheLayout) (publications : List (Publication encodings.sha256)) : Tx Files SourceError Unit :=
  publications.forM (Publication.publish encodings layout)

variable {encodings} {layout : CacheLayout} {p q : Publication encodings.sha256}
  {publications : List (Publication encodings.sha256)} {manifest : AdmittedSourceManifest Digest}
  {file : AdmittedSourceManifestFile Digest} {path : List Bytes} {digest digest' : Digest} {files files' : Files}

/-- The publication promises the hash for the place. -/
def Promises (layout : CacheLayout) (p : Publication encodings.sha256) (path : List Bytes) (digest : Digest) : Prop :=
  ∃ manifest, p.manifest = .ok manifest ∧ ∃ file ∈ manifest.files, ∃ place,
    manifest.filePath layout file.cachePath = .ok place ∧ path = place.segments ∧ file.rawSha256 = some digest

omit [DecidableEq Digest] in
/-- Where a publication's file is. -/
theorem placed_of_filePath (hroot : IsClean layout.root.rooted layout.root.segments) (hrun : IsName p.runId)
    (hsource : p.source.Fixed) (hmanifest : p.manifest = .ok manifest) (hfile : file ∈ manifest.files) {place : SlashPath}
    (hplace : manifest.filePath layout file.cachePath = .ok place) :
    ∃ paths, Placed layout.root p.runId p.source paths ∧
      place.segments = paths.filesRoot.segments ++ file.cachePath.splitOn slash := by
  obtain ⟨hrunId, hsourceEq, byPath, -, hfiles⟩ := buildAdmittedSourceManifest_ok hmanifest
  have hplace := mapError_ok.1 hplace
  rw [hrunId, hsourceEq] at hplace
  obtain ⟨paths, hpaths, -⟩ := except_bind_ok.1 hplace
  exact ⟨paths, pathsFor_ok hroot hrun hsource hpaths, filePath_ok (hfiles file hfile).relative hpaths hplace⟩

omit [DecidableEq Digest] in
/-- **Separate publications do not promise two hashes for one place.** -/
theorem promises_agree (hroot : IsClean layout.root.rooted layout.root.segments) (hseparate : Separate publications)
    (hp : p ∈ publications) (hq : q ∈ publications) (h : Promises layout p path digest)
    (h' : Promises layout q path digest') : digest = digest' := by
  obtain ⟨manifest, hmanifest, file, hfile, place, hplace, rfl, hraw⟩ := h
  obtain ⟨manifest', hmanifest', file', hfile', place', hplace', heq, hraw'⟩ := h'
  obtain ⟨paths, hpaths, hsegments⟩ :=
    placed_of_filePath hroot (hseparate.runs p hp) (hseparate.revisions p hp) hmanifest hfile hplace
  obtain ⟨paths', hpaths', hsegments'⟩ :=
    placed_of_filePath hroot (hseparate.runs q hq) (hseparate.revisions q hq) hmanifest' hfile' hplace'
  rw [hsegments, hsegments'] at heq
  have hkeys : ∀ key, gitHubRepositoryKey p.source.repository = .ok key →
      gitHubRepositoryKey q.source.repository = .ok key → p.source.repository = q.source.repository := by
    intro key hkey hkey'
    refine hseparate.keys p hp q hq ?_
    rw [sameKey, hkey, hkey']
    simp
  obtain ⟨horigin, hcache⟩ := hpaths.filesRoot_inj hpaths' hkeys heq
  have hfiles : file ∈ p.files := by rwa [Publication.files, hmanifest]
  have hfiles' : file' ∈ q.files := by rwa [Publication.files, hmanifest']
  have hsame := hseparate.contents p hp q hq horigin file hfiles file' hfiles' (eq_of_splitOn_eq hcache)
  rw [hraw, hraw'] at hsame
  exact Option.some.inj hsame

omit [DecidableEq Digest] in
/-- No manifest has the place of a file. -/
theorem promise_ne_manifestPath (hroot : IsClean layout.root.rooted layout.root.segments)
    (hseparate : Separate publications) (hp : p ∈ publications) (hq : q ∈ publications)
    (h : Promises layout p path digest) {paths : CachePaths} (hpaths : layout.pathsFor q.runId q.source = .ok paths) :
    path ≠ paths.manifestPath.segments := by
  obtain ⟨manifest, hmanifest, file, hfile, place, hplace, rfl, -⟩ := h
  obtain ⟨paths', hpaths', hsegments⟩ :=
    placed_of_filePath hroot (hseparate.runs p hp) (hseparate.revisions p hp) hmanifest hfile hplace
  rw [hsegments]
  have hplaced := pathsFor_ok hroot (hseparate.runs q hq) (hseparate.revisions q hq) hpaths
  exact (hplaced.manifestPath_ne hpaths' _).symm

/-- What a successful publication did. -/
theorem publish_ok (h : p.publish encodings layout files = .ok ((), files')) :
    ∃ manifest paths byPath between, p.manifest = .ok manifest ∧
      layout.pathsFor p.runId p.source = .ok paths ∧
      manifest.files.forM (publishFile encodings layout manifest byPath) files = .ok ((), between) ∧
      between.write paths.manifestPath.segments (encodings.encode manifest) = .ok files' := by
  obtain ⟨manifest, hmanifest, h⟩ := Tx.ofExcept_bind.1 h
  obtain ⟨hrunId, hsource, -⟩ := buildAdmittedSourceManifest_ok hmanifest
  obtain ⟨paths, hpaths, h⟩ := Tx.ofExcept_bind.1 h
  obtain ⟨byPath, -, h⟩ := Tx.ofExcept_bind.1 h
  obtain ⟨_, between, hloop, h⟩ := Tx.bind_ok.1 h
  rw [mapError_ok, hrunId, hsource] at hpaths
  exact ⟨manifest, paths, byPath, between, hmanifest, hpaths, hloop, Tx.exec_ok.1 h⟩

variable (encodings) in
/-- The file's place holds its hash, and some bytes pass its check. -/
def Fulfilled (layout : CacheLayout) (manifest : AdmittedSourceManifest Digest) (file : AdmittedSourceManifestFile Digest)
    (files : Files) : Prop :=
  (∃ data, verifyCachedFile encodings file data = .ok ()) ∧ ∃ place, manifest.filePath layout file.cachePath = .ok place ∧
    ∃ digest, file.rawSha256 = some digest ∧ Holds encodings place.segments digest files

/-- The files of the publication's manifest are as promised. -/
def Kept (layout : CacheLayout) (p : Publication encodings.sha256) (files : Files) : Prop :=
  ∀ manifest, p.manifest = .ok manifest → ∀ file ∈ manifest.files, Fulfilled encodings layout manifest file files

/-- Keeping the promised hashes keeps a file as promised. -/
theorem Fulfilled.mono (hmanifest : p.manifest = .ok manifest) (hfile : file ∈ manifest.files)
    (hkeep : ∀ path digest, Promises layout p path digest → Holds encodings path digest files →
      Holds encodings path digest files') (h : Fulfilled encodings layout manifest file files) :
    Fulfilled encodings layout manifest file files' := by
  obtain ⟨hdata, place, hplace, digest, hraw, hholds⟩ := h
  have hpromise : Promises layout p place.segments digest := ⟨manifest, hmanifest, file, hfile, place, hplace, rfl, hraw⟩
  exact ⟨hdata, place, hplace, digest, hraw, hkeep _ _ hpromise hholds⟩

section Separated

variable (hroot : IsClean layout.root.rooted layout.root.segments) (hseparate : Separate publications)
include hroot hseparate

/-- A round of a publication keeps what the publications promise. -/
theorem publishFile_keeps (hp : p ∈ publications) (hq : q ∈ publications) (hmanifest : q.manifest = .ok manifest)
    (hfile : file ∈ manifest.files) {byPath : List (Bytes × ReadFileResult encodings.sha256)}
    (h : publishFile encodings layout manifest byPath file files = .ok ((), files'))
    (hpromise : Promises layout p path digest) (hholds : Holds encodings path digest files) :
    Holds encodings path digest files' := by
  obtain ⟨-, -, admitted, -, hfiles⟩ := buildAdmittedSourceManifest_ok hmanifest
  obtain ⟨read, -, hraw⟩ := (hfiles file hfile).admitted
  obtain ⟨-, place, hplace, -, hkeep⟩ := publishFile_ok hraw h
  refine hkeep path digest (fun hpath => ?_) hholds
  exact promises_agree hroot hseparate hp hq hpromise ⟨manifest, hmanifest, file, hfile, place, hplace, hpath, hraw⟩

omit [DecidableEq Digest] in
/-- So does the manifest. -/
theorem writeManifest_keeps (hp : p ∈ publications) (hq : q ∈ publications) {paths : CachePaths} {data : Bytes}
    (hpaths : layout.pathsFor q.runId q.source = .ok paths) (h : files.write paths.manifestPath.segments data = .ok files')
    (hpromise : Promises layout p path digest) (hholds : Holds encodings path digest files) :
    Holds encodings path digest files' := by
  obtain ⟨data, hread, hdigest⟩ := hholds
  exact ⟨data, FileTree.read_write_other h (promise_ne_manifestPath hroot hseparate hp hq hpromise hpaths) hread, hdigest⟩

/-- **A publication keeps what the publications promise.** -/
theorem publish_keeps (hp : p ∈ publications) (hq : q ∈ publications)
    (h : q.publish encodings layout files = .ok ((), files')) (hkept : Kept layout p files) : Kept layout p files' := by
  obtain ⟨manifest', paths, byPath, between, hmanifest', hpaths, hloop, hwrite⟩ := publish_ok h
  intro manifest hmanifest file hfile
  refine (hkept manifest hmanifest file hfile).mono hmanifest hfile fun path digest hpromise hholds => ?_
  refine writeManifest_keeps hroot hseparate hp hq hpaths hwrite hpromise ?_
  refine Tx.forM_keeps (fun file' hfile' s s' hs hround => ?_) hloop hholds
  exact publishFile_keeps hroot hseparate hp hq hmanifest' hfile' hround hpromise hs

/-- **A publication fulfils its own promises.** -/
theorem publish_fulfils (hp : p ∈ publications) (h : p.publish encodings layout files = .ok ((), files')) :
    Kept layout p files' := by
  obtain ⟨manifest, paths, byPath, between, hmanifest, hpaths, hloop, hwrite⟩ := publish_ok h
  obtain ⟨-, -, admitted, -, hfiles⟩ := buildAdmittedSourceManifest_ok hmanifest
  have hbetween : ∀ file ∈ manifest.files, Fulfilled encodings layout manifest file between := by
    refine Tx.forM_establishes (fun file hfile s s' hround => ?_) (fun file hfile file' hfile' s s' hs hround => ?_) hloop
    · obtain ⟨read, -, hraw⟩ := (hfiles file hfile).admitted
      obtain ⟨hdata, place, hplace, hholds, -⟩ := publishFile_ok hraw hround
      exact ⟨hdata, place, hplace, _, hraw, hholds⟩
    · exact hs.mono hmanifest hfile fun path digest hpromise hholds =>
        publishFile_keeps hroot hseparate hp hp hmanifest hfile' hround hpromise hholds
  intro manifest' hmanifest' file hfile
  obtain rfl := Except.ok.inj (hmanifest.symm.trans hmanifest')
  exact (hbetween file hfile).mono hmanifest hfile fun path digest hpromise hholds =>
    writeManifest_keeps hroot hseparate hp hp hpaths hwrite hpromise hholds

end Separated

/-- A file that is as promised is read back with its admitted bytes. -/
theorem readFile_of_kept (hcollisions : Function.Injective encodings.sha256) (hseparate : Separate publications)
    (hp : p ∈ publications) (hmanifest : p.manifest = .ok manifest) (hkept : Kept layout p files)
    (hfile : file ∈ manifest.files) : ∃ data, p.admittedBytes file.sourcePath = some data ∧
      readFile encodings layout manifest file.cachePath files = .ok data := by
  obtain ⟨-, -, byPath, hreads, hadmitted⟩ := buildAdmittedSourceManifest_ok hmanifest
  obtain ⟨read, hlookup, hraw⟩ := (hadmitted file hfile).admitted
  refine ⟨read.data, by simp [Publication.admittedBytes, hreads, hlookup], ?_⟩
  -- The access takes the first file with the cache path, which has the same hash.
  obtain ⟨first, hfirst, hfind, hcache⟩ := manifestFile_of_mem (fun file hfile => (hadmitted file hfile).relative) hfile
  have hfiles : p.files = manifest.files := by rw [Publication.files, hmanifest]
  have hrawFirst : first.rawSha256 = some (encodings.sha256 read.data) := by
    rw [← hraw]
    exact hseparate.contents p hp p hp rfl first (by rwa [hfiles]) file (by rwa [hfiles]) hcache
  obtain ⟨⟨checked, hchecked⟩, place, hplace, digest, hdigest, data, hread, hsha⟩ := hkept manifest hmanifest first hfirst
  obtain rfl : encodings.sha256 read.data = digest := Option.some.inj (hrawFirst.symm.trans hdigest)
  obtain rfl : data = read.data := hcollisions hsha
  obtain rfl : checked = read.data := hcollisions (verifyCachedFile_ok encodings hchecked hrawFirst)
  unfold readFile
  rw [hfind]
  refine except_bind_ok.2 ⟨place, hplace, ?_⟩
  rw [hread]
  exact except_bind_ok.2 ⟨(), hchecked, rfl⟩

end Sequences

namespace Sample

/-- Bytes that stand for their own hash. -/
def encodings : SourceEncodings Bytes := ⟨id, .ok, fun manifest => manifest.runId⟩

/-- The cache below `/cache`. -/
def layout : CacheLayout := ⟨true, [bytes "cache"]⟩

/-- No files. -/
def start : Files := ⟨[], .nil⟩

/-- A run of the file `main.py` of a repository, at one revision. -/
def publication (runId repository data : Bytes) : Publication encodings.sha256 where
  runId := runId
  source := ⟨repository, some (bytes "4f2a")⟩
  declared := [⟨.pythonEntrypoint, bytes "main.py", bytes "main.py", "text/x-python", none⟩]
  admitted := [newReadFileResult encodings.sha256 (bytes "main.py") data none]
  reads := [newReadFileResult encodings.sha256 (bytes "main.py") data none]

/-- Read a file of a publication back after a sequence of publications. -/
def readBack (publications : List (Publication encodings.sha256)) (p : Publication encodings.sha256) (cachePath : Bytes) :
    Except SourceError Bytes := do
  let (_, final) ← publishAll encodings layout publications start
  let manifest ← p.manifest
  readFile encodings layout manifest cachePath final

/-- Runs of two repositories with different keys. -/
def apart : List (Publication encodings.sha256) :=
  [publication (bytes "run-1") (bytes "github.com/a/b") (bytes "one"),
    publication (bytes "run-2") (bytes "github.com/a/c") (bytes "two")]

theorem separate_apart : Separate apart where
  runs := by decide
  revisions := by decide
  keys := by decide +kernel
  contents := by decide +kernel

theorem exists_published : ∃ final, publishAll encodings layout apart start = .ok ((), final) := by
  have hok : (publishAll encodings layout apart start).isOk = true := by decide +kernel
  cases h : publishAll encodings layout apart start with
  | ok result => exact ⟨result.2, rfl⟩
  | error e =>
    rw [h] at hok
    cases hok

end Sample

end GoEtl.RepoSource
