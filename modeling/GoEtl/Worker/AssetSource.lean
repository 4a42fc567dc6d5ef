import GoEtl.Model.DataAsset

/-!
# What a worker does with an asset

The decisions of `cmd/worker/data_asset_materializer.go` that do not touch files: by which strategy an asset is materialized,
where its data come from, and which data are as expected.
-/

namespace GoEtl.Worker

open Text Model

variable {ν μ : Type}

/-- `assetEvidence`. -/
structure AssetEvidence where
  size : ℤ
  sha256 : Chars
  deriving DecidableEq, Repr

/-- `materializationStrategy`. -/
def materializationStrategy (unicode : Unicode) (asset : BoundDataAsset ν μ) : Except String Chars :=
  if asset.materialization.strategy ≠ [] then .ok asset.materialization.strategy
  else if asset.cache.strategy ≠ [] then .ok asset.cache.strategy
  else
    match asset.provider with
    | .http => .ok (chars "worker_cache")
    | .gdriveRclone => .ok (chars "worker_cache")
    | .localFile | .registeredLocation => .ok (chars "reference")
    | .other name => .error ("unsupported data provider " ++ unicode.quote name)

/-- Where the data of an asset are. -/
inductive AssetSource where
  | http (uri : Chars)
  | gdriveRclone (remote drivePath fileId : Chars)
  | namedLocation (name path : Chars)
  deriving DecidableEq, Repr

/-- The source that `acquireSource` reads. -/
def acquiredSource (unicode : Unicode) (asset : BoundDataAsset ν μ) : Except String AssetSource :=
  match asset.provider with
  | .http => .ok (.http asset.location.uri)
  | .gdriveRclone => .ok (.gdriveRclone asset.location.remote asset.location.drivePath asset.location.fileId)
  | .localFile | .registeredLocation => .ok (.namedLocation asset.location.locationName asset.location.path)
  | .other name => .error ("unsupported data provider " ++ unicode.quote name)

/-- The source that `materializeReference` refers to. -/
def referencedSource (asset : BoundDataAsset ν μ) : Except String AssetSource :=
  match asset.provider with
  | .http => .error "http assets require worker_cache materialization"
  | .gdriveRclone => .error "gdrive_rclone assets require worker_cache materialization"
  | _ => .ok (.namedLocation asset.location.locationName asset.location.path)

/-- The source of an asset by its strategy, as `materialize` dispatches. -/
def materializedSource (unicode : Unicode) (asset : BoundDataAsset ν μ) : Except String AssetSource := do
  let strategy ← materializationStrategy unicode asset
  if strategy = chars "reference" then referencedSource asset
  else if strategy = chars "worker_cache" then acquiredSource unicode asset
  else .error ("unsupported materialization strategy " ++ unicode.quote strategy)

/-- `verifyExpectedIntegrity`. -/
def verifyExpectedIntegrity (asset : BoundDataAsset ν μ) (evidence : AssetEvidence) : Except String Unit := do
  checkSome (fun size => refuse (evidence.size ≠ size) s!"expected size {size}, observed {evidence.size}")
    asset.integrity.sizeBytes
  refuse (asset.integrity.sha256 ≠ [] ∧ evidence.sha256 ≠ asset.integrity.sha256)
    ("expected sha256 " ++ String.ofList asset.integrity.sha256 ++ ", observed " ++ String.ofList evidence.sha256)

end GoEtl.Worker
