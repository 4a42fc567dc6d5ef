import Mathlib.Data.List.Nodup
import GoEtl.ControllerAuth.Policy
import GoEtl.Library.Transaction

/-!
# Credentials

`internal/controllerauth/credentials.go`: the tokens that the configuration names are read from the environment or from
files when the controller starts, and only their hashes are kept. A bearer token is matched against the hashes.

The hash (SHA-256) is a parameter, as is the quoting of names in error texts (`%q`).

`loadCredentials_ok` says what a store that was loaded contains: one entry for each credential, in order, with the hash
of its token, and no hash twice. `matchBearer_eq_some` is then what a match says, for tokens that hash differently.
-/

namespace GoEtl.ControllerAuth

open Library Text

/-- `Mode`. -/
inductive Mode where
  | disabled
  | bearer
  /-- A text that is no mode. -/
  | other (text : String)
  deriving DecidableEq, Repr

/-- `Credential`. -/
structure Credential where
  id : String
  role : Role
  (tokenEnv tokenFile : String)
  deriving DecidableEq, Repr

/-- `Config`. -/
structure Config where
  mode : Mode
  credentials : List Credential
  deriving DecidableEq, Repr

/-- The part of `fs.FileMode` that is looked at. -/
structure FileMode where
  isDir : Bool
  perm : UInt32

/-- `CredentialSources`. -/
structure CredentialSources where
  lookupEnv : String → Option Bytes
  readFile : String → Except String Bytes
  statFile : String → Except String FileMode

/-- `Principal`. -/
structure Principal where
  id : String
  role : Role
  deriving DecidableEq, Repr

/-- The principal of a credential. -/
def Credential.principal (credential : Credential) : Principal := ⟨credential.id, credential.role⟩

/-- `loadedCredential`. -/
structure LoadedCredential (Digest : Type) where
  principal : Principal
  digest : Digest

/-- `Store`. -/
abbrev CredentialStore (Digest : Type) := List (LoadedCredential Digest)

/-! ### Reading tokens -/

/-- `trimOneTrailingLineEnding`. -/
def trimOneTrailingLineEnding (value : Bytes) : Bytes :=
  if bytes "\r\n" <:+ value then trimSuffix (bytes "\r\n") value
  else if bytes "\n" <:+ value then trimSuffix (bytes "\n") value
  else if bytes "\r" <:+ value then trimSuffix (bytes "\r") value
  else value

/-- `validateRestrictiveFileMode`. -/
def validateRestrictiveFileMode (mode : FileMode) : Except String Unit :=
  if mode.isDir then .error "token file must not be a directory"
  else if mode.perm = 0 then .ok ()
  else if mode.perm &&& 0o077 ≠ 0 then .error "token file permissions must not grant group or other access"
  else .ok ()

section

variable (quote : String → String)

/-- `normalizedToken`. -/
def normalizedToken (credentialId source : String) (value : Bytes) : Except String Bytes :=
  if trimOneTrailingLineEnding value = [] then
    .error ("credential " ++ quote credentialId ++ " " ++ source ++ " is empty")
  else .ok (trimOneTrailingLineEnding value)

/-- The file branch of `readCredentialToken`. -/
def readTokenFile (credential : Credential) (sources : CredentialSources) : Except String Bytes :=
  let file := "credential " ++ quote credential.id ++ " token_file " ++ quote credential.tokenFile
  match sources.statFile credential.tokenFile with
  | .error e => .error (file ++ " stat failed: " ++ e)
  | .ok info =>
    match validateRestrictiveFileMode info with
    | .error e => .error (file ++ ": " ++ e)
    | .ok () =>
      match sources.readFile credential.tokenFile with
      | .error e => .error (file ++ " read failed: " ++ e)
      | .ok data => normalizedToken quote credential.id ("token_file " ++ quote credential.tokenFile) data

/-- `readCredentialToken`. -/
def readCredentialToken (sources : CredentialSources) (credential : Credential) : Except String Bytes :=
  if credential.tokenEnv ≠ "" then
    match sources.lookupEnv credential.tokenEnv with
    | none => .error ("credential " ++ quote credential.id ++ " token_env " ++ quote credential.tokenEnv ++ " is not set")
    | some value => normalizedToken quote credential.id ("token_env " ++ quote credential.tokenEnv) value
  else if credential.tokenFile ≠ "" then readTokenFile quote credential sources
  else .error ("credential " ++ quote credential.id ++ " has no token source")

/-! ### The store -/

variable {Digest : Type} [DecidableEq Digest] (hash : Bytes → Digest)

/-- The loop of `LoadCredentials`, with the credentials that are already loaded. -/
def loadFrom (sources : CredentialSources) (loaded : CredentialStore Digest) :
    List Credential → Except String (CredentialStore Digest)
  | [] => .ok loaded
  | credential :: credentials => do
    let token ← readCredentialToken quote sources credential
    match loaded.find? (·.digest = hash token) with
    | some prior =>
      .error ("credential " ++ quote credential.id ++ " duplicates token material from credential " ++
        quote prior.principal.id)
    | none => loadFrom sources (loaded ++ [⟨credential.principal, hash token⟩]) credentials

/-- `LoadCredentials`. -/
def loadCredentials (config : Config) (sources : CredentialSources) : Except String (CredentialStore Digest) :=
  match config.mode with
  | .disabled => .ok []
  | .other text => .error ("unsupported authentication mode " ++ quote text)
  | .bearer =>
    if config.credentials = [] then .error "bearer authentication requires at least one credential"
    else loadFrom quote hash sources [] config.credentials

/-- `MatchBearer`. -/
def matchBearer (store : CredentialStore Digest) (token : Bytes) : Option Principal :=
  (store.find? (·.digest = hash token)).map (·.principal)

end

/-! ### What a loaded store contains -/

variable {quote : String → String} {Digest : Type} [DecidableEq Digest] {hash : Bytes → Digest}
  {sources : CredentialSources} {config : Config} {loaded store : CredentialStore Digest}

/-- The entry of a credential. -/
def EntryOf (quote : String → String) (hash : Bytes → Digest) (sources : CredentialSources) (credential : Credential)
    (entry : LoadedCredential Digest) : Prop :=
  ∃ token, readCredentialToken quote sources credential = .ok token ∧ entry = ⟨credential.principal, hash token⟩

/-- The store has an entry for each of these credentials, and otherwise only what was loaded before. -/
structure Holds (quote : String → String) (hash : Bytes → Digest) (sources : CredentialSources)
    (loaded : CredentialStore Digest) (credentials : List Credential) (store : CredentialStore Digest) : Prop where
  distinct : (store.map (·.digest)).Nodup
  old : ∀ entry ∈ loaded, entry ∈ store
  entry : ∀ credential ∈ credentials, ∃ entry ∈ store, EntryOf quote hash sources credential entry
  origin : ∀ entry ∈ store, entry ∈ loaded ∨ ∃ credential ∈ credentials, EntryOf quote hash sources credential entry

theorem loadFrom_ok {credentials : List Credential} (h : loadFrom quote hash sources loaded credentials = .ok store)
    (hloaded : (loaded.map (·.digest)).Nodup) : Holds quote hash sources loaded credentials store := by
  induction credentials generalizing loaded with
  | nil =>
    cases h
    exact ⟨hloaded, fun _ => id, by simp, fun _ => .inl⟩
  | cons credential credentials ih =>
    obtain ⟨token, htoken, h⟩ := except_bind_ok.1 h
    split at h
    · cases h
    · rename_i hnew
      have hentry : EntryOf quote hash sources credential ⟨credential.principal, hash token⟩ := ⟨token, htoken, rfl⟩
      have hnodup : ((loaded ++ [(⟨credential.principal, hash token⟩ : LoadedCredential Digest)]).map
          (·.digest)).Nodup := by
        rw [List.map_append, List.nodup_append]
        refine ⟨hloaded, by simp, ?_⟩
        intro digest hdigest digest' hdigest' heq
        obtain ⟨entry, hentry, rfl⟩ := List.mem_map.1 hdigest
        have hnone := List.find?_eq_none.1 hnew entry hentry
        simp_all
      obtain ⟨hdistinct, hold, hentries, horigin⟩ := ih h hnodup
      refine ⟨hdistinct, fun entry he => hold entry (by simp [he]), ?_, fun entry he => ?_⟩
      · rw [List.forall_mem_cons]
        exact ⟨⟨_, hold _ (by simp), hentry⟩, hentries⟩
      · rcases horigin entry he with he | ⟨other, hother, he⟩
        · rcases List.mem_append.1 he with he | he
          · exact .inl he
          · rw [List.mem_singleton.1 he]
            exact .inr ⟨credential, List.mem_cons_self, hentry⟩
        · exact .inr ⟨other, List.mem_cons_of_mem _ hother, he⟩

theorem loadCredentials_ok (hmode : config.mode = .bearer) (h : loadCredentials quote hash config sources = .ok store) :
    Holds quote hash sources [] config.credentials store := by
  unfold loadCredentials at h
  rw [hmode] at h
  dsimp only at h
  split at h
  · cases h
  · exact loadFrom_ok h List.nodup_nil

/-- **What a match says**: the token is the token of a credential, and the principal is its principal. -/
theorem matchBearer_eq_some (hhash : hash.Injective) (hmode : config.mode = .bearer)
    (h : loadCredentials quote hash config sources = .ok store) {token : Bytes} {principal : Principal} :
    matchBearer hash store token = some principal ↔
      ∃ credential ∈ config.credentials, readCredentialToken quote sources credential = .ok token ∧
        principal = credential.principal := by
  have hstore := loadCredentials_ok hmode h
  constructor
  · intro hmatch
    obtain ⟨entry, hfind, rfl⟩ := Option.map_eq_some_iff.1 hmatch
    have hdigest : entry.digest = hash token := by simpa using List.find?_some hfind
    obtain hnil | ⟨credential, hcredential, token', htoken, rfl⟩ := hstore.origin entry (List.mem_of_find?_eq_some hfind)
    · exact absurd hnil List.not_mem_nil
    · exact ⟨credential, hcredential, hhash hdigest ▸ htoken, rfl⟩
  · rintro ⟨credential, hcredential, htoken, rfl⟩
    obtain ⟨entry, hentry, token', htoken', rfl⟩ := hstore.entry credential hcredential
    obtain rfl : token' = token := by
      rw [htoken] at htoken'
      cases htoken'
      rfl
    -- The hash is in the store once, so that the first entry with it is the credential's own.
    have hfind : store.find? (·.digest = hash token') = some ⟨credential.principal, hash token'⟩ := by
      have hsome : (store.find? (·.digest = hash token')).isSome := List.find?_isSome.2 ⟨_, hentry, by simp⟩
      obtain ⟨found, hfound⟩ := Option.isSome_iff_exists.1 hsome
      have hdigest : found.digest = hash token' := by simpa using List.find?_some hfound
      rw [hfound, List.inj_on_of_nodup_map hstore.distinct (List.mem_of_find?_eq_some hfound) hentry hdigest]
    rw [matchBearer, hfind]
    rfl

end GoEtl.ControllerAuth
