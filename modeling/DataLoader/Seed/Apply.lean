import DataLoader.GoText
import DataLoader.Metadata.Tables
import DataLoader.Relational.Lists

/-!
# Seeding the metadata

Model of `internal/seed/seed.go` and of the record types of `yaml.go`. The
switch over `First`, `Create` and `Save` of gorm that sources and loads share is
`Model.upsert`: `Create` stores the column default of the model's tag for a field
whose Go value is zero (`sourceCreated`, `loadCreated`), `Save` writes the row as it is. The transaction is atomic, and a call
on the database fails only where the data makes it fail: a row that it refuses, or
a name that is taken. Timestamps are left out, and so are parsing the file and the
watermarks, runs and log entries, which `Apply` does not touch.
-/

namespace DataLoader.Seed

open Relational

/-! ## The seed file -/

/-- `SourceSpec` (yaml.go, lines 19–25). A nil map is `none`. -/
structure SourceSpec where
  name : String := ""
  kind : String := ""
  description : String := ""
  isEnabled : Option Bool := none
  params : Option Params := none
  deriving DecidableEq, Repr

/-- `LoadSpec` (lines 27–40). -/
structure LoadSpec where
  name : String := ""
  source : String := ""
  cronExpression : String := ""
  mode : String := ""
  objectName : String := ""
  watermarkColumn : String := ""
  watermarkType : String := ""
  targetSchema : String := ""
  targetTable : String := ""
  batchSize : Int := 0
  autoCreateTable : Option Bool := none
  isEnabled : Option Bool := none
  deriving DecidableEq, Repr

/-- `ModbusTagSpec` (lines 42–56). Floats are bit patterns. -/
structure ModbusTagSpec where
  load : String := ""
  tagName : String := ""
  correlationID : String := ""
  unitID : UInt8 := 0
  registerType : String := ""
  address : UInt16 := 0
  quantity : UInt16 := 0
  dataType : String := ""
  byteOrder : String := ""
  wordOrder : String := ""
  scale : Option UInt64 := none
  offset : Option UInt64 := none
  isEnabled : Option Bool := none
  deriving DecidableEq, Repr

/-- `OPCUANodeSpec` (lines 58–65). -/
structure OPCUANodeSpec where
  load : String := ""
  tagName : String := ""
  nodeID : String := ""
  scale : Option UInt64 := none
  offset : Option UInt64 := none
  isEnabled : Option Bool := none
  deriving DecidableEq, Repr

/-- `File` (lines 12–17). -/
structure File where
  sources : List SourceSpec := []
  loads : List LoadSpec := []
  modbusTags : List ModbusTagSpec := []
  opcuaNodes : List OPCUANodeSpec := []
  deriving DecidableEq, Repr

/-! ## The database -/

/-- The float `1`. -/
def one : UInt64 := 0x3ff0000000000000

/-- What `Create` stores for a field with a declared default. -/
def orDefault {α : Type} [DecidableEq α] (zero default v : α) : α := if v = zero then default else v

/-- `Create` of a source (models.go, lines 10–22). -/
def sourceCreated (id : Int) (s : SourceRecord) : SourceRecord :=
  { s with id, isEnabled := orDefault false true s.isEnabled }

/-- `Create` of a load (lines 27–54). -/
def loadCreated (id : Int) (l : LoadRecord) : LoadRecord :=
  { l with
    id
    targetSchema := orDefault "" "dbo" l.targetSchema
    watermarkType := orDefault "" "none" l.watermarkType
    batchSize := orDefault 0 1000 l.batchSize
    autoCreateTable := orDefault false true l.autoCreateTable
    isEnabled := orDefault false true l.isEnabled }

/-- `Create` of a Modbus tag (lines 106–129), but for its id. -/
def modbusTagCreated (t : ModbusTag) : ModbusTag :=
  { t with
    unitID := orDefault 0 1 t.unitID
    quantity := orDefault 0 1 t.quantity
    byteOrder := orDefault "" "big" t.byteOrder
    wordOrder := orDefault "" "high_first" t.wordOrder
    scale := orDefault 0 one t.scale
    isEnabled := orDefault false true t.isEnabled }

/-- `Create` of an OPC UA node (lines 135–147), but for its id. -/
def opcuaNodeCreated (n : OPCUANode) : OPCUANode :=
  { n with
    scale := orDefault 0 one n.scale
    isEnabled := orDefault false true n.isEnabled }

def sourceModel : Model SourceRecord String := ⟨(·.id), (·.name), (·.deleted)⟩

def loadModel : Model LoadRecord String := ⟨(·.id), (·.name), (·.deleted)⟩

def modbusOwned : Owned ModbusTag where
  owner := (·.loadID)
  setID n t := { t with id := n }
  owner_setID _ _ := rfl
  setID_setID _ _ _ := rfl

def opcuaOwned : Owned OPCUANode where
  owner := (·.loadID)
  setID n t := { t with id := n }
  owner_setID _ _ := rfl
  setID_setID _ _ _ := rfl

/-- The tables with the next values of their identity columns. -/
structure SeedDB where
  tables : MetaTables := {}
  nextSource : Int := 1
  nextLoad : Int := 1
  nextTag : ℕ := 1
  nextNode : ℕ := 1
  deriving DecidableEq, Repr

/-- The libraries below: `json.Marshal` of a map, why the database refuses a row (a
    text that is too long, say; the number that it gives to a tag or a node has no
    part in it), and the error of a unique index. -/
structure SeedEnv where
  marshal : Option Params → Except Err String
  refuseSource : SourceRecord → Option Err
  refuseLoad : LoadRecord → Option Err
  refuseTag : ModbusTag → Option Err
  refuseNode : OPCUANode → Option Err
  duplicate : String → Err

/-! ## Helpers and the report -/

/-- Model of `boolOr` (seed.go, lines 295–300) and `float64Or` (309–314). -/
def valueOr {α : Type} (p : Option α) (default : α) : α := p.getD default

/-- Model of `stringOr` (lines 302–307). -/
def stringOr (s default : String) : String := if s = "" then default else s

/-- Model of `defaultQuantity` (lines 318–332). -/
def defaultQuantity [GoText] (t : ModbusTagSpec) : UInt16 :=
  if t.quantity > 0 then t.quantity
  else
    let dataType := GoText.toLower t.dataType
    if dataType ∈ ["int16", "uint16", "bool"] then 1
    else if dataType ∈ ["int32", "uint32", "float32"] then 2
    else if dataType ∈ ["int64", "uint64", "float64"] then 4
    else 1

/-- `Action` (lines 261–266). -/
inductive Action
  | created
  | updated
  deriving DecidableEq, Repr

def Action.of (created : Bool) : Action := if created then .created else .updated

/-- `Report` (lines 268–275). -/
structure Report where
  sourcesCreated : List String := []
  sourcesUpdated : List String := []
  loadsCreated : List String := []
  loadsUpdated : List String := []
  modbusTags : ℕ := 0
  opcuaNodes : ℕ := 0
  deriving DecidableEq, Repr

/-- Model of `recordSource` (lines 277–283). -/
def Report.recordSource (r : Report) (a : Action) (name : String) : Report :=
  match a with
  | .created => { r with sourcesCreated := r.sourcesCreated ++ [name] }
  | .updated => { r with sourcesUpdated := r.sourcesUpdated ++ [name] }

/-- Model of `recordLoad` (lines 285–291). -/
def Report.recordLoad (r : Report) (a : Action) (name : String) : Report :=
  match a with
  | .created => { r with loadsCreated := r.loadsCreated ++ [name] }
  | .updated => { r with loadsUpdated := r.loadsUpdated ++ [name] }

/-! ## Upserts -/

/-- The source of a new row (lines 119–125), before `Create`. -/
def SourceSpec.fresh (spec : SourceSpec) (paramsJSON : String) : SourceRecord where
  id := 0
  name := spec.name
  kind := spec.kind
  description := spec.description
  paramsJSON
  isEnabled := valueOr spec.isEnabled true

/-- The source with the spec written over it (lines 133–136). -/
def SourceSpec.onto (spec : SourceSpec) (paramsJSON : String) (s : SourceRecord) : SourceRecord :=
  { s with
    kind := spec.kind
    description := spec.description
    paramsJSON
    isEnabled := valueOr spec.isEnabled s.isEnabled }

/-- Model of `upsertSource` (lines 106–142). `First`, `Create` and `Save` are those of
    `Model.upsert`. -/
def upsertSource (env : SeedEnv) (spec : SourceSpec) (db : SeedDB) :
    Except Err (SourceRecord × Action × SeedDB) :=
  if spec.name = "" ∨ spec.kind = "" then .error "name and kind are required"
  else
    match env.marshal spec.params with
    | .error e => .error ("marshal params: " ++ e)
    | .ok paramsJSON =>
      match sourceModel.upsert env.refuseSource env.duplicate db.tables.sources db.nextSource
          spec.name (fun id => sourceCreated id (spec.fresh paramsJSON)) (spec.onto paramsJSON) with
      | .error e => .error e
      | .ok u => .ok (u.row, .of u.created, { db with
          tables := { db.tables with sources := u.rows }
          nextSource := u.next })

/-- The load of a new row (lines 152–165), before `Create`. -/
def LoadSpec.fresh (spec : LoadSpec) (sourceID : Int) : LoadRecord where
  id := 0
  name := spec.name
  sourceID
  cronExpression := spec.cronExpression
  mode := spec.mode
  objectName := spec.objectName
  watermarkColumn := spec.watermarkColumn
  watermarkType := spec.watermarkType
  targetSchema := spec.targetSchema
  targetTable := spec.targetTable
  batchSize := spec.batchSize
  autoCreateTable := valueOr spec.autoCreateTable true
  isEnabled := valueOr spec.isEnabled true

/-- The load with the spec written over it (lines 173–183). -/
def LoadSpec.onto (spec : LoadSpec) (sourceID : Int) (l : LoadRecord) : LoadRecord :=
  { l with
    sourceID
    cronExpression := spec.cronExpression
    mode := spec.mode
    objectName := spec.objectName
    watermarkColumn := spec.watermarkColumn
    watermarkType := spec.watermarkType
    targetSchema := spec.targetSchema
    targetTable := spec.targetTable
    batchSize := spec.batchSize
    autoCreateTable := valueOr spec.autoCreateTable l.autoCreateTable
    isEnabled := valueOr spec.isEnabled l.isEnabled }

/-- Model of `upsertLoad` (lines 144–189). -/
def upsertLoad (env : SeedEnv) (spec : LoadSpec) (sourceID : Int) (db : SeedDB) :
    Except Err (LoadRecord × Action × SeedDB) :=
  if spec.name = "" then .error "name is required"
  else
    match loadModel.upsert env.refuseLoad env.duplicate db.tables.loads db.nextLoad spec.name
        (fun id => loadCreated id (spec.fresh sourceID)) (spec.onto sourceID) with
    | .error e => .error e
    | .ok u => .ok (u.row, .of u.created, { db with
        tables := { db.tables with loads := u.rows }
        nextLoad := u.next })

/-! ## Tags and nodes -/

/-- The rows that `Create` stores for the specs of a load: each spec is checked and
    turned into a row, and the database takes the rows together or not at all. -/
def rowsToCreate {T C : Type} (row : T → Except Err C) (created : C → C)
    (refuse : C → Option Err) (specs : List T) : Except Err (List C) :=
  match specs.mapM row with
  | .error e => .error e
  | .ok rows =>
    match (rows.map created).findSome? refuse with
    | some e => .error e
    | none => .ok (rows.map created)

variable [GoLib] [GoText]

/-- One round of the loop of `replaceModbusTags` (lines 197–222). -/
def modbusTagRow (loadID : Int) (t : ModbusTagSpec) : Except Err ModbusTag :=
  if t.tagName = "" then .error "modbus tag requires tag_name"
  else if t.registerType = "" then
    .error ("modbus tag " ++ GoLib.quote t.tagName ++ " requires register_type")
  else if t.dataType = "" then
    .error ("modbus tag " ++ GoLib.quote t.tagName ++ " requires data_type")
  else .ok {
    id := 0
    loadID
    tagName := t.tagName
    correlationID := t.correlationID
    unitID := t.unitID
    registerType := t.registerType
    address := t.address
    quantity := defaultQuantity t
    dataType := t.dataType
    byteOrder := stringOr t.byteOrder "big"
    wordOrder := stringOr t.wordOrder "high_first"
    scale := valueOr t.scale one
    offset := valueOr t.offset 0
    isEnabled := valueOr t.isEnabled true }

/-- Model of `replaceModbusTags` (lines 191–230). -/
def replaceModbusTags (env : SeedEnv) (db : SeedDB) (loadID : Int) (specs : List ModbusTagSpec) :
    Except Err (ℕ × SeedDB) :=
  match rowsToCreate (modbusTagRow loadID) modbusTagCreated env.refuseTag specs with
  | .error e => .error e
  | .ok rows => .ok (rows.length, { db with
      tables := { db.tables with
        modbusTags := modbusOwned.replace db.tables.modbusTags loadID db.nextTag rows }
      nextTag := db.nextTag + rows.length })

omit [GoLib] [GoText] in
/-- One round of the loop of `replaceOPCUANodes` (lines 237–249). -/
def opcuaNodeRow (loadID : Int) (n : OPCUANodeSpec) : Except Err OPCUANode :=
  if n.tagName = "" ∨ n.nodeID = "" then .error "opcua node requires tag_name and node_id"
  else .ok {
    id := 0
    loadID
    tagName := n.tagName
    nodeID := n.nodeID
    scale := valueOr n.scale one
    offset := valueOr n.offset 0
    isEnabled := valueOr n.isEnabled true }

omit [GoLib] [GoText] in
/-- Model of `replaceOPCUANodes` (lines 232–257). -/
def replaceOPCUANodes (env : SeedEnv) (db : SeedDB) (loadID : Int) (specs : List OPCUANodeSpec) :
    Except Err (ℕ × SeedDB) :=
  match rowsToCreate (opcuaNodeRow loadID) opcuaNodeCreated env.refuseNode specs with
  | .error e => .error e
  | .ok rows => .ok (rows.length, { db with
      tables := { db.tables with
        opcuaNodes := opcuaOwned.replace db.tables.opcuaNodes loadID db.nextNode rows }
      nextNode := db.nextNode + rows.length })

/-! ## Apply -/

/-- The list of a load in `modbusByLoad` (lines 23–29). -/
def File.modbusByLoad (f : File) (load : String) : List ModbusTagSpec :=
  f.modbusTags.filter fun t => t.load == load

/-- The list of a load in `opcuaByLoad` (lines 30–36). -/
def File.opcuaByLoad (f : File) (load : String) : List OPCUANodeSpec :=
  f.opcuaNodes.filter fun n => n.load == load

/-- The checks before the transaction (lines 22–52). Go visits the two maps in any
    order; the first undeclared name of the file stands for the one it meets first. -/
def File.checkReferences (f : File) : Option Err :=
  if let some t := f.modbusTags.find? fun t => t.load == "" then
    some ("modbus_tag " ++ GoLib.quote t.tagName ++ " missing load reference")
  else if let some n := f.opcuaNodes.find? fun n => n.load == "" then
    some ("opcua_node " ++ GoLib.quote n.tagName ++ " missing load reference")
  else if let some t := f.modbusTags.find? fun t => !f.loads.any fun l => l.name == t.load then
    some ("modbus_tags reference undeclared load " ++ GoLib.quote t.load)
  else if let some n := f.opcuaNodes.find? fun n => !f.loads.any fun l => l.name == n.load then
    some ("opcua_nodes reference undeclared load " ++ GoLib.quote n.load)
  else none

/-- What the transaction of `Apply` works on: the database, `srcByName` with later
    entries in front, and the report. -/
structure SeedTx where
  db : SeedDB
  srcByName : List (String × SourceRecord) := []
  rep : Report := {}

/-- One round of the loop over the sources (lines 56–63). An error carries the report
    as it is then. -/
def applySource (env : SeedEnv) (tx : SeedTx) (spec : SourceSpec) :
    Except (Report × Err) SeedTx :=
  match upsertSource env spec tx.db with
  | .error e => .error (tx.rep, "source " ++ GoLib.quote spec.name ++ ": " ++ e)
  | .ok (s, action, db) => .ok {
      db
      srcByName := (spec.name, s) :: tx.srcByName
      rep := tx.rep.recordSource action spec.name }

/-- The source of a load (lines 66–76). -/
def sourceOf (tx : SeedTx) (spec : LoadSpec) : Option SourceRecord :=
  match tx.srcByName.lookup spec.source with
  | some s => some s
  | none => sourceModel.first tx.db.tables.sources spec.source

/-- The Modbus tags of a load, if the file has some (lines 84–90). -/
def applyModbusTags (env : SeedEnv) (f : File) (spec : LoadSpec) (loadID : Int) (tx : SeedTx) :
    Except (Report × Err) SeedTx :=
  if f.modbusByLoad spec.name = [] then .ok tx
  else
    match replaceModbusTags env tx.db loadID (f.modbusByLoad spec.name) with
    | .error e => .error (tx.rep, "load " ++ GoLib.quote spec.name ++ " modbus tags: " ++ e)
    | .ok (n, db) => .ok { tx with db, rep.modbusTags := tx.rep.modbusTags + n }

omit [GoText] in
/-- The OPC UA nodes of a load, if the file has some (lines 91–97). -/
def applyOPCUANodes (env : SeedEnv) (f : File) (spec : LoadSpec) (loadID : Int) (tx : SeedTx) :
    Except (Report × Err) SeedTx :=
  if f.opcuaByLoad spec.name = [] then .ok tx
  else
    match replaceOPCUANodes env tx.db loadID (f.opcuaByLoad spec.name) with
    | .error e => .error (tx.rep, "load " ++ GoLib.quote spec.name ++ " opcua nodes: " ++ e)
    | .ok (n, db) => .ok { tx with db, rep.opcuaNodes := tx.rep.opcuaNodes + n }

/-- One round of the loop over the loads (lines 65–98). -/
def applyLoad (env : SeedEnv) (f : File) (tx : SeedTx) (spec : LoadSpec) :
    Except (Report × Err) SeedTx :=
  match sourceOf tx spec with
  | none => .error (tx.rep, "load " ++ GoLib.quote spec.name ++ " references unknown source " ++
      GoLib.quote spec.source)
  | some src =>
    match upsertLoad env spec src.id tx.db with
    | .error e => .error (tx.rep, "load " ++ GoLib.quote spec.name ++ ": " ++ e)
    | .ok (l, action, db) =>
      match applyModbusTags env f spec l.id
          { tx with db, rep := tx.rep.recordLoad action spec.name } with
      | .error e => .error e
      | .ok tx => applyOPCUANodes env f spec l.id tx

/-- The transaction (lines 54–100). -/
def transaction (env : SeedEnv) (f : File) (db : SeedDB) : Except (Report × Err) SeedTx := do
  let tx ← f.sources.foldlM (applySource env) { db }
  f.loads.foldlM (applyLoad env f) tx

/-- Model of `Apply` (lines 19–102): the report, the error and the database
    afterwards. -/
def apply (env : SeedEnv) (f : File) (db : SeedDB) : Report × Option Err × SeedDB :=
  match f.checkReferences with
  | some e => ({}, some e, db)
  | none =>
    match transaction env f db with
    | .error (rep, e) => (rep, some e, db)
    | .ok tx => (tx.rep, none, tx.db)

end DataLoader.Seed
