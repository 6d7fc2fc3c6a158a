import DataLoader.Config.Params
import DataLoader.Housekeeping.Sweeps
import DataLoader.Logging.Conservation
import DataLoader.Logging.Details
import DataLoader.Pipeline.Cleanup
import DataLoader.Pipeline.Datetimes
import DataLoader.Pipeline.FirstRun
import DataLoader.Pipeline.Forward
import DataLoader.Pipeline.Guids
import DataLoader.Pipeline.LegacyReplace
import DataLoader.Pipeline.Modes
import DataLoader.Pipeline.PoolClear
import DataLoader.Pipeline.PoolProgress
import DataLoader.Pipeline.RenamedNames
import DataLoader.Pipeline.RunMetrics
import DataLoader.Pipeline.Snapshots
import DataLoader.Pipeline.Telemetry
import DataLoader.Reload.Coordinator
import DataLoader.Runstate.History
import DataLoader.Scheduler.Drain
import DataLoader.Scheduler.Shutdown
import DataLoader.Scheduler.Status
import DataLoader.Scheduler.Trigger
import DataLoader.Seed.Stated
import DataLoader.Seed.TagLists
import DataLoader.Sources.DeltaPlans
