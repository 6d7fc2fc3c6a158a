import DataLoader.Metadata.Models

/-!
# The metadata tables

The rows of `meta_sources`, `meta_loads`, `meta_modbus_tags` and
`meta_opcua_nodes` (`internal/metadata/models.go`), and the reads of the
repository that go over them. A row whose `DeletedAt` is set stays in its table,
and gorm adds `deleted_at IS NULL` to the queries on the model. `float64` columns
are bit patterns. Assumed of the database: names are compared exactly, as a collation that
ignores case does not.
-/

namespace DataLoader

/-- A row of `meta_sources` (lines 10–24). -/
structure SourceRecord extends Source where
  description : String := ""
  deleted : Bool := false
  deriving DecidableEq, Repr

/-- A row of `meta_loads` (lines 27–56). -/
structure LoadRecord where
  id : Int
  sourceID : Int
  name : String
  objectName : String := ""
  targetSchema : String := "dbo"
  targetTable : String := ""
  mode : String := ""
  watermarkColumn : String := ""
  watermarkType : String := "none"
  batchSize : Int := 1000
  autoCreateTable : Bool := true
  cronExpression : String := ""
  isEnabled : Bool := true
  deleted : Bool := false
  deriving DecidableEq, Repr

/-- A row of `meta_modbus_tags` (lines 106–131). -/
structure ModbusTag where
  id : ℕ
  loadID : Int
  correlationID : String
  tagName : String
  unitID : UInt8
  registerType : String
  address : UInt16
  quantity : UInt16
  dataType : String
  byteOrder : String
  wordOrder : String
  scale : UInt64
  offset : UInt64
  isEnabled : Bool
  deriving DecidableEq, Repr

/-- A row of `meta_opcua_nodes` (lines 135–149). -/
structure OPCUANode where
  id : ℕ
  loadID : Int
  tagName : String
  nodeID : String
  scale : UInt64
  offset : UInt64
  isEnabled : Bool
  deriving DecidableEq, Repr

/-- The tables that describe what is to be loaded. -/
structure MetaTables where
  sources : List SourceRecord := []
  loads : List LoadRecord := []
  modbusTags : List ModbusTag := []
  opcuaNodes : List OPCUANode := []
  deriving DecidableEq, Repr

namespace MetaTables

/-- The rows that a query on `Source` sees. -/
def liveSources (t : MetaTables) : List SourceRecord := t.sources.filter fun s => !s.deleted

/-- The rows that a query on `Load` sees. -/
def liveLoads (t : MetaTables) : List LoadRecord := t.loads.filter fun l => !l.deleted

end MetaTables

/-- The load as the repository returns it, with its source. -/
def LoadRecord.withSource (l : LoadRecord) (source : Source) : Load where
  id := l.id
  sourceID := l.sourceID
  source
  name := l.name
  objectName := l.objectName
  targetSchema := l.targetSchema
  targetTable := l.targetTable
  mode := l.mode
  watermarkColumn := l.watermarkColumn
  watermarkType := l.watermarkType
  batchSize := l.batchSize
  autoCreateTable := l.autoCreateTable
  cronExpression := l.cronExpression
  isEnabled := l.isEnabled

namespace MetaTables

/-- The join of `ListEnabledLoads` (`repository.go`, lines 28–37), before its tests
    of the two `is_enabled` columns. -/
def joinedLoads (t : MetaTables) : List Load :=
  t.liveLoads.filterMap fun l =>
    (t.liveSources.find? fun s => s.id == l.sourceID).map fun s => l.withSource s.toSource

/-- The primary keys and the unique indexes on the names. -/
structure Keyed (t : MetaTables) : Prop where
  sourceIDs : (t.sources.map (·.id)).Nodup
  sourceNames : (t.sources.map (·.name)).Nodup
  loadIDs : (t.loads.map (·.id)).Nodup
  loadNames : (t.loads.map (·.name)).Nodup

instance (t : MetaTables) : Decidable t.Keyed :=
  decidable_of_iff ((t.sources.map (·.id)).Nodup ∧ (t.sources.map (·.name)).Nodup ∧
    (t.loads.map (·.id)).Nodup ∧ (t.loads.map (·.name)).Nodup)
    ⟨fun ⟨h1, h2, h3, h4⟩ => ⟨h1, h2, h3, h4⟩, fun ⟨h1, h2, h3, h4⟩ => ⟨h1, h2, h3, h4⟩⟩

theorem joinedLoads_ids_sublist (sources : List SourceRecord) (ls : List LoadRecord) :
    ((ls.filterMap fun l => (sources.find? fun s => s.id == l.sourceID).map fun s =>
      l.withSource s.toSource).map (·.id)).Sublist (ls.map (·.id)) := by
  induction ls with
  | nil => exact .slnil
  | cons l ls ih =>
    rw [List.filterMap_cons]
    cases sources.find? fun s => s.id == l.sourceID with
    | none => exact ih.cons _
    | some s => exact ih.cons_cons _

theorem Keyed.nodup_joinedLoads {t : MetaTables} (h : t.Keyed) : (t.joinedLoads.map (·.id)).Nodup := by
  have hlive : (t.liveLoads.map (·.id)).Sublist (t.loads.map (·.id)) := List.filter_sublist.map _
  exact h.loadIDs.sublist ((joinedLoads_ids_sublist t.liveSources t.liveLoads).trans hlive)

end MetaTables

end DataLoader
