import GoEtl.Model.DataNames

/-!
# Data assets

`internal/model/data_asset.go`, `data_archive.go` and `materialization_scope.go`: an asset that a step reads, bound to
its location, and the templates that it is bound from. A template and what is bound from it have the same fields, with
texts that have placeholders in the one and not in the other; the checks that they share are stated once, with the names
of the fields as arguments.
-/

namespace GoEtl.Model

open Text

/-- The texts of the providers that are supported, and any other. -/
inductive DataProvider where
  | http
  | localFile
  | registeredLocation
  | gdriveRclone
  | other (name : Chars)
  deriving DecidableEq, Repr

/-- The text of a provider. -/
def DataProvider.text : DataProvider → Chars
  | .http => chars "http"
  | .localFile => chars "local_file"
  | .registeredLocation => chars "registered_location"
  | .gdriveRclone => chars "gdrive_rclone"
  | .other name => name

/-- `isSupportedDataProvider`. -/
def isSupportedDataProvider : DataProvider → Bool
  | .other _ => false
  | _ => true

/-- `DataAssetIntegrity`, and `DataAssetIntegrityTemplate`. -/
structure DataAssetIntegrity where
  sha256 : Chars
  sizeBytes : Option ℤ
  required : Bool
  deriving DecidableEq, Repr

/-- `DataAssetCache`, and `DataAssetCacheTemplate`. -/
structure DataAssetCache where
  (strategy cacheKey : Chars)
  immutable : Option Bool
  deriving DecidableEq, Repr

/-- `DataAssetArchiveSelect`, and `DataAssetArchiveSelectTemplate`. -/
structure DataAssetArchiveSelect where
  (member as : Chars)
  required : Option Bool
  deriving DecidableEq, Repr

/-- `DataAssetArchive`, and `DataAssetArchiveTemplate`. -/
structure DataAssetArchive where
  type : Chars
  select : List DataAssetArchiveSelect
  expose : Chars
  deriving DecidableEq, Repr

/-- `DataAssetMaterialization`, and `DataAssetMaterializationTemplate`. -/
structure DataAssetMaterialization where
  (scope strategy pathTemplate : Chars)
  deriving DecidableEq, Repr

/-- `DataAssetTransferPolicy`. -/
structure DataAssetTransferPolicy where
  (maxConcurrentSourceTransfers requestedBandwidthMiBPerSecond maxBytesPerSecond : ℤ)
  providerArgs : List (Chars × Chars)
  deriving DecidableEq, Repr

/-- `DataAssetLocation`. -/
structure DataAssetLocation where
  type : DataProvider
  (uri locationName path remote drivePath fileId : Chars)
  deriving DecidableEq, Repr

/-- `BoundDataAsset`, with parameter values and metadata of any types. -/
structure BoundDataAsset (ν μ : Type) where
  (definitionName bindingName providerName kind format : Chars)
  provider : DataProvider
  location : DataAssetLocation
  integrity : DataAssetIntegrity
  cache : DataAssetCache
  archive : Option DataAssetArchive
  materialization : DataAssetMaterialization
  transferPolicy : DataAssetTransferPolicy
  parameters : List (Chars × ν)
  metadata : μ
  deriving DecidableEq

section

variable (unicode : Unicode)

/-! ### Checks -/

/-- `isHTTPURI`. -/
def isHttpUri (value : Chars) : Bool := (chars "http://").isPrefixOf value || (chars "https://").isPrefixOf value

/-- `validateRcloneRemote`. -/
def validateRcloneRemote (value : Chars) : Except String Unit :=
  if trim value = [] then .error "gdrive remote is required"
  else if trim value ≠ value then .error "gdrive remote must not contain leading or trailing whitespace"
  else if hasAny ['\\', '/', ':'] value then .error "gdrive remote must be a remote name, not a path"
  else .ok ()

/-- A lower-case hexadecimal digit. -/
def isLowerHex (c : Char) : Bool := ('0' ≤ c && c ≤ '9') || ('a' ≤ c && c ≤ 'f')

/-- `validateOptionalSHA256`. A text of another length in bytes has another length or a character that is no digit. -/
def validateOptionalSha256 (field : String) (value : Chars) : Except String Unit :=
  if value = [] ∨ (value.length = 64 ∧ value.all isLowerHex) then .ok ()
  else .error (field ++ " must be a 64-character lowercase SHA-256 hex value")

/-- `validateOptionalSize`. -/
def validateOptionalSize (field : String) : Option ℤ → Except String Unit :=
  checkSome fun size => refuse (size < 0) (field ++ " must be non-negative")

/-- The last check of an integrity. -/
def validateRequiredIntegrity (integrity : DataAssetIntegrity) : Except String Unit :=
  refuse (integrity.required ∧ integrity.sha256 = [] ∧ integrity.sizeBytes = none)
    "required integrity needs sha256 or size_bytes"

/-- `validateIntegrity`. -/
def validateIntegrity (integrity : DataAssetIntegrity) : Except String Unit := do
  validateOptionalSha256 "sha256" integrity.sha256
  validateOptionalSize "size_bytes" integrity.sizeBytes
  validateRequiredIntegrity integrity

/-- `validateDataRelativePath`, of a path that may be empty. -/
def validateOptionalPath (value : Chars) (field : String) : Except String Unit :=
  if value = [] then .ok ()
  else do
    let _ ← validateDataRelativePath value field
    pure ()

/-- The two strategies, and none. -/
def strategies : List Chars := [[], chars "worker_cache", chars "reference"]

/-- `DataAssetCache.Validate`, with the name of the key's field. -/
def validateCache (field : String) (cache : DataAssetCache) : Except String Unit := do
  validateChoice unicode strategies "cache strategy" cache.strategy
  validateOptionalPath cache.cacheKey field

/-- `DataAssetArchiveSelect.Validate`, with the name of the member's field. -/
def validateArchiveSelect (field : String) (selector : DataAssetArchiveSelect) : Except String Unit := do
  let _ ← validateDataRelativePath selector.member field
  validateOptionalPath selector.as "archive as path"

/-- `effectiveRequired`. -/
def DataAssetArchiveSelect.effectiveRequired (selector : DataAssetArchiveSelect) : Bool := selector.required.getD true

/-- The loop over the selectors. -/
def validateArchiveSelects (field : String) (index : ℕ) : List DataAssetArchiveSelect → Except String Unit
  | [] => .ok ()
  | selector :: rest => do
    (validateArchiveSelect field selector).mapError (s!"archive select {index}: " ++ ·)
    validateArchiveSelects field (index + 1) rest

/-- `validateArchiveExposeSelection`. -/
def validateArchiveExposeSelection (expose : Chars) (requiredCount : ℕ) : Except String Unit :=
  refuse (expose = chars "selected_path" ∧ requiredCount ≠ 1)
    "archive expose selected_path requires exactly one required member"

/-- `DataAssetArchive.Validate`, with the name of the member's field. -/
def validateArchive (field : String) (archive : DataAssetArchive) : Except String Unit := do
  validateChoice unicode [chars "zip", chars "seven_zip"] "archive type" archive.type
  validateChoice unicode [[], chars "selected_path", chars "selected_directory"] "archive expose" archive.expose
  validateArchiveSelects field 0 archive.select
  validateArchiveExposeSelection archive.expose (archive.select.countP (·.effectiveRequired))

/-- `DataAssetMaterialization.Validate`. -/
def DataAssetMaterialization.validate (materialization : DataAssetMaterialization) : Except String Unit := do
  validateChoice unicode [[], chars "shared", chars "worker"] "materialization scope" materialization.scope
  validateOptionalPath materialization.pathTemplate "materialization path_template"
  validateChoice unicode strategies "materialization strategy" materialization.strategy

/-- The check of an argument of a provider. -/
def validateProviderArg (arg : Chars × Chars) : Except String Unit :=
  if trim arg.1 = [] then .error "transfer policy provider arg key is required"
  else if arg.1 ≠ chars "rclone_bwlimit" then .error ("unsupported transfer policy provider arg " ++ unicode.quote arg.1)
  else if trim arg.2 = [] then .error ("transfer policy provider arg " ++ String.ofList arg.1 ++ " value is required")
  else if trim arg.2 ≠ arg.2 then
    .error ("transfer policy provider arg " ++ String.ofList arg.1 ++ " must not contain leading or trailing whitespace")
  else .ok ()

/-- `DataAssetTransferPolicy.Validate`. -/
def DataAssetTransferPolicy.validate (policy : DataAssetTransferPolicy) : Except String Unit := do
  validateOptionalSize "max_concurrent_source_transfers" (some policy.maxConcurrentSourceTransfers)
  validateOptionalSize "requested_bandwidth_mib_per_second" (some policy.requestedBandwidthMiBPerSecond)
  validateOptionalSize "max_bytes_per_second" (some policy.maxBytesPerSecond)
  policy.providerArgs.forM (validateProviderArg unicode)

/-- `DataAssetLocation.Validate`. -/
def DataAssetLocation.validate (location : DataAssetLocation) : Except String Unit :=
  match location.type with
  | .other name => .error ("unsupported data asset location type " ++ unicode.quote name)
  | .http =>
    if trim location.uri = [] then .error "data asset location uri is required"
    else if !isHttpUri location.uri then .error "data asset location uri must use http or https"
    else .ok ()
  | .localFile | .registeredLocation => do
    validateDataName unicode location.locationName "data asset location_name"
    let _ ← validateDataRelativePath location.path "data asset location path"
    pure ()
  | .gdriveRclone => do
    validateRcloneRemote location.remote
    let _ ← validateDataRelativePath location.drivePath "data asset drive_path"
    refuse (trim location.fileId ≠ location.fileId) "data asset file_id must not contain leading or trailing whitespace"

/-- `BoundDataAsset.Validate`. -/
def BoundDataAsset.validate {ν μ : Type} (asset : BoundDataAsset ν μ) : Except String Unit := do
  (if asset.definitionName = [] then pure ()
    else validateDataName unicode asset.definitionName "bound data asset definition_name")
  validateDataName unicode asset.bindingName "bound data asset binding_name"
  validateDataName unicode asset.providerName "bound data asset provider_name"
  refuse (trim asset.kind = []) "bound data asset kind is required"
  refuse (!isSupportedDataProvider asset.provider) ("unsupported data provider " ++ unicode.quote asset.provider.text)
  asset.location.validate unicode
  validateIntegrity asset.integrity
  validateCache unicode "cache_key" asset.cache
  checkSome (validateArchive unicode "archive member") asset.archive
  asset.materialization.validate unicode
  asset.transferPolicy.validate unicode

end

end GoEtl.Model
