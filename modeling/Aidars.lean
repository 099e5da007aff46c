import Aidars.Artifact.Collection
import Aidars.Auth.Credentials
import Aidars.Auth.ReplayGuard
import Aidars.Cache.Agreement
import Aidars.Cache.FailedPut
import Aidars.Cache.Maintenance
import Aidars.Cache.Resolution
import Aidars.Cas.Inventory
import Aidars.Frames.Scheduler
import Aidars.Intelligence.DependencyGraph
import Aidars.Intelligence.SceneEngine
import Aidars.M12.Replay
import Aidars.Orchestrator.Blame
import Aidars.Orchestrator.Budget
import Aidars.Orchestrator.CrashRecovery
import Aidars.Orchestrator.Description
import Aidars.Orchestrator.Pipeline
import Aidars.Orchestrator.Restored
import Aidars.Orchestrator.Speculation
import Aidars.Orchestrator.Starvation
import Aidars.Orchestrator.WriteThrough
import Aidars.Packaging.Manifest
import Aidars.Packaging.Publication
import Aidars.Packaging.Remapping
import Aidars.Placement.Affinity
import Aidars.Placement.Policy
import Aidars.Placement.Selection
import Aidars.Registry.Location
import Aidars.Store.Disclosure
import Aidars.Training.MergeLaws
import Aidars.Training.Sampler
import Aidars.Training.ShardLaws
import Aidars.Training.Synchronization
import Aidars.Transfer.Upload
import Aidars.VideoRendering.Adapter
import Aidars.Visibility.Culling
import Aidars.Visibility.DependencyResolver
import Aidars.Visibility.InfluenceOrder
import Aidars.Visibility.Projection
import Aidars.Visibility.RayBox
import Aidars.Visibility.ViewBasis
import Aidars.Worker.Isolation
import Aidars.Worker.Sandbox
import Aidars.Worker.SingleFlight
import Aidars.Worker.Staging
import Aidars.Worker.Verification
