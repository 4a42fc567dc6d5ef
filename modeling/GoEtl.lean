import GoEtl.Persistence.RetryCeiling
import GoEtl.Persistence.Resources
import GoEtl.Persistence.Ownership
import GoEtl.Controller.Restarts
import GoEtl.Controller.Demand
import GoEtl.Controller.AuthMiddleware
import GoEtl.Controller.Routes
import GoEtl.RepoSource.Publications
import GoEtl.Controller.SubmissionVariables
import GoEtl.Variables.Noninterference
import GoEtl.Workflow.StageLabels
import GoEtl.Workflow.FanOutTemplate
import GoEtl.Model.PathTemplate
import GoEtl.Worker.Redaction
import GoEtl.Document.Overlay
import GoEtl.Workflow.AssetKey
import GoEtl.Model.Collection
import GoEtl.Controller.HeartbeatPolicy
import GoEtl.Controller.CareTaker
import GoEtl.Variables.Environment
import GoEtl.Controller.WorkerScript
import GoEtl.Geospatial.PairCounts
import GoEtl.Persistence.StageCompletion
