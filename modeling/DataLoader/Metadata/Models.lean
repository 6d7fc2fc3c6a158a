import DataLoader.Contracts

/-!
# Metadata records

The gorm models of `internal/metadata/models.go`, with the fields that the
scheduler, the runner and the repository read or write. Creation and soft-delete
timestamps of sources and loads are left out.
-/

namespace DataLoader

/-- `metadata.Source` (lines 10–22). -/
structure Source where
  id : Int
  name : String
  kind : String
  paramsJSON : String
  isEnabled : Bool
  deriving DecidableEq, Repr

/-- `metadata.Load` (lines 27–54). -/
structure Load where
  id : Int
  sourceID : Int
  source : Source
  name : String
  objectName : String
  targetSchema : String
  targetTable : String
  mode : String
  watermarkColumn : String
  watermarkType : String
  batchSize : Int
  autoCreateTable : Bool
  cronExpression : String
  isEnabled : Bool
  deriving DecidableEq, Repr

/-- The target of a load as the runner builds it. -/
def Load.target (load : Load) : TargetTable := ⟨load.targetSchema, load.targetTable⟩

/-- A row of `meta_watermarks` (lines 60–67). -/
structure WatermarkRow where
  value : String
  updatedAt : Time
  previousValue : String
  deriving DecidableEq, Repr

/-- The values of `LoadRun.Status`. -/
inductive RunStatus
  | running
  | success
  | failed
  | aborted
  deriving DecidableEq, Repr

/-- A status as a text. -/
def RunStatus.text : RunStatus → String
  | .running => "running"
  | .success => "success"
  | .failed => "failed"
  | .aborted => "aborted"

/-- A run that is no longer `running`. -/
def RunStatus.terminal (s : RunStatus) : Bool := s != .running

/-- A row of `meta_load_runs` (lines 72–85). -/
structure LoadRun where
  id : ℕ
  runUUID : String
  loadID : Int
  status : RunStatus
  startedAt : Time
  finishedAt : Option Time := none
  rowsRead : Int := 0
  rowsWritten : Int := 0
  watermarkStart : String
  watermarkEnd : String := ""
  errorMessage : String := ""
  durationMs : Int := 0
  deriving DecidableEq, Repr

end DataLoader
