import DataLoader.Relational.Fields
import DataLoader.Seed.Idempotent

/-!
# Stated values are stored values

A seed file says more than the records that it is decoded to: a field may be stated
with its zero value or left out. `FileDoc` is the file with this difference, and
`FileDoc.decode` what the decoder of `yaml.go` is assumed to make of it (`Unmarshals`).

* `stated_values_stored_iff`: after an `Apply` without an error every stated value is
  stored, if and only if no two entries of a name disagree, no new row is stated with
  a zero value for which `Create` stores a default, and no tag or node is
  (`FileDoc.Kept`).
-/

namespace DataLoader.Seed

open Relational Field

/-! ## Files with fields that may be left out -/

/-- A source of the file. -/
structure SourceDoc where
  name : Option String := none
  kind : Option String := none
  description : Option String := none
  isEnabled : Option Bool := none
  params : Option Params := none

/-- A load of the file. -/
structure LoadDoc where
  name : Option String := none
  source : Option String := none
  cronExpression : Option String := none
  mode : Option String := none
  objectName : Option String := none
  watermarkColumn : Option String := none
  watermarkType : Option String := none
  targetSchema : Option String := none
  targetTable : Option String := none
  batchSize : Option Int := none
  autoCreateTable : Option Bool := none
  isEnabled : Option Bool := none

/-- A Modbus tag of the file. -/
structure ModbusTagDoc where
  load : Option String := none
  tagName : Option String := none
  correlationID : Option String := none
  unitID : Option UInt8 := none
  registerType : Option String := none
  address : Option UInt16 := none
  quantity : Option UInt16 := none
  dataType : Option String := none
  byteOrder : Option String := none
  wordOrder : Option String := none
  scale : Option UInt64 := none
  offset : Option UInt64 := none
  isEnabled : Option Bool := none

/-- An OPC UA node of the file. -/
structure OPCUANodeDoc where
  load : Option String := none
  tagName : Option String := none
  nodeID : Option String := none
  scale : Option UInt64 := none
  offset : Option UInt64 := none
  isEnabled : Option Bool := none

structure FileDoc where
  sources : List SourceDoc := []
  loads : List LoadDoc := []
  modbusTags : List ModbusTagDoc := []
  opcuaNodes : List OPCUANodeDoc := []

/-- The decoder leaves a field that is not stated at its Go zero value. -/
def SourceDoc.decode (d : SourceDoc) : SourceSpec where
  name := d.name.getD ""
  kind := d.kind.getD ""
  description := d.description.getD ""
  isEnabled := d.isEnabled
  params := d.params

def LoadDoc.decode (d : LoadDoc) : LoadSpec where
  name := d.name.getD ""
  source := d.source.getD ""
  cronExpression := d.cronExpression.getD ""
  mode := d.mode.getD ""
  objectName := d.objectName.getD ""
  watermarkColumn := d.watermarkColumn.getD ""
  watermarkType := d.watermarkType.getD ""
  targetSchema := d.targetSchema.getD ""
  targetTable := d.targetTable.getD ""
  batchSize := d.batchSize.getD 0
  autoCreateTable := d.autoCreateTable
  isEnabled := d.isEnabled

def ModbusTagDoc.decode (d : ModbusTagDoc) : ModbusTagSpec where
  load := d.load.getD ""
  tagName := d.tagName.getD ""
  correlationID := d.correlationID.getD ""
  unitID := d.unitID.getD 0
  registerType := d.registerType.getD ""
  address := d.address.getD 0
  quantity := d.quantity.getD 0
  dataType := d.dataType.getD ""
  byteOrder := d.byteOrder.getD ""
  wordOrder := d.wordOrder.getD ""
  scale := d.scale
  offset := d.offset
  isEnabled := d.isEnabled

def OPCUANodeDoc.decode (d : OPCUANodeDoc) : OPCUANodeSpec where
  load := d.load.getD ""
  tagName := d.tagName.getD ""
  nodeID := d.nodeID.getD ""
  scale := d.scale
  offset := d.offset
  isEnabled := d.isEnabled

def FileDoc.decode (f : FileDoc) : File where
  sources := f.sources.map (·.decode)
  loads := f.loads.map (·.decode)
  modbusTags := f.modbusTags.map (·.decode)
  opcuaNodes := f.opcuaNodes.map (·.decode)

/-- What is assumed of `yaml.Unmarshal`: a field that is left out has its zero value. -/
def Unmarshals (unmarshal : FileDoc → File) : Prop := ∀ f, unmarshal f = f.decode

/-! ## What is stated, and what is stored -/

/-- A value that is stated is `v`. -/
def Says {α : Type} (p : Option α) (v : α) : Prop := ∀ x, p = some x → v = x

/-- The row of a source has what the entry states. -/
structure SourceDoc.StatedIn (env : SeedEnv) (d : SourceDoc) (s : SourceRecord) : Prop where
  name : Says d.name s.name
  kind : Says d.kind s.kind
  description : Says d.description s.description
  isEnabled : Says d.isEnabled s.isEnabled
  params : ∀ p, d.params = some p → env.marshal (some p) = .ok s.paramsJSON

/-- The row of a load has what the entry states; its source is given by the id of the
    row with the stated name. -/
structure LoadDoc.StatedIn (sources : List SourceRecord) (d : LoadDoc) (l : LoadRecord) :
    Prop where
  name : Says d.name l.name
  source : ∀ name, d.source = some name →
    ∃ s, sourceModel.first sources name = some s ∧ l.sourceID = s.id
  cronExpression : Says d.cronExpression l.cronExpression
  mode : Says d.mode l.mode
  objectName : Says d.objectName l.objectName
  watermarkColumn : Says d.watermarkColumn l.watermarkColumn
  watermarkType : Says d.watermarkType l.watermarkType
  targetSchema : Says d.targetSchema l.targetSchema
  targetTable : Says d.targetTable l.targetTable
  batchSize : Says d.batchSize l.batchSize
  autoCreateTable : Says d.autoCreateTable l.autoCreateTable
  isEnabled : Says d.isEnabled l.isEnabled

structure ModbusTagDoc.StatedIn (d : ModbusTagDoc) (t : ModbusTag) : Prop where
  tagName : Says d.tagName t.tagName
  correlationID : Says d.correlationID t.correlationID
  unitID : Says d.unitID t.unitID
  registerType : Says d.registerType t.registerType
  address : Says d.address t.address
  quantity : Says d.quantity t.quantity
  dataType : Says d.dataType t.dataType
  byteOrder : Says d.byteOrder t.byteOrder
  wordOrder : Says d.wordOrder t.wordOrder
  scale : Says d.scale t.scale
  offset : Says d.offset t.offset
  isEnabled : Says d.isEnabled t.isEnabled

structure OPCUANodeDoc.StatedIn (d : OPCUANodeDoc) (n : OPCUANode) : Prop where
  tagName : Says d.tagName n.tagName
  nodeID : Says d.nodeID n.nodeID
  scale : Says d.scale n.scale
  offset : Says d.offset n.offset
  isEnabled : Says d.isEnabled n.isEnabled

/-- The entries for one name. -/
def FileDoc.sourcesOf (f : FileDoc) (name : String) : List SourceDoc :=
  f.sources.filter fun d => d.decode.name = name

def FileDoc.loadsOf (f : FileDoc) (name : String) : List LoadDoc :=
  f.loads.filter fun d => d.decode.name = name

/-- The tags and the nodes that the file lists for a load. -/
def FileDoc.tagsOf (f : FileDoc) (load : String) : List ModbusTagDoc :=
  f.modbusTags.filter fun d => d.decode.load == load

def FileDoc.nodesOf (f : FileDoc) (load : String) : List OPCUANodeDoc :=
  f.opcuaNodes.filter fun d => d.decode.load == load

/-- Every value that the file states is stored: in the row of the name, and for a tag
    or a node in its place among the rows of its load. -/
structure FileDoc.StoredIn (env : SeedEnv) (f : FileDoc) (db : SeedDB) : Prop where
  sources : ∀ name, ∀ d ∈ f.sourcesOf name, ∃ s,
    sourceModel.first db.tables.sources name = some s ∧ d.StatedIn env s
  loads : ∀ name, ∀ d ∈ f.loadsOf name, ∃ l,
    loadModel.first db.tables.loads name = some l ∧ d.StatedIn db.tables.sources l
  tags : ∀ load, f.tagsOf load ≠ [] → ∃ l, loadModel.first db.tables.loads load = some l ∧
    List.Forall₂ ModbusTagDoc.StatedIn (f.tagsOf load)
      (modbusOwned.rowsOf db.tables.modbusTags l.id)
  nodes : ∀ load, f.nodesOf load ≠ [] → ∃ l, loadModel.first db.tables.loads load = some l ∧
    List.Forall₂ OPCUANodeDoc.StatedIn (f.nodesOf load)
      (opcuaOwned.rowsOf db.tables.opcuaNodes l.id)

/-! ## The condition -/

/-- The entries of a source do not disagree, and when the row is new the first one does
    not state that it is disabled, unless a later one states the flag again. -/
structure SourcesKept (env : SeedEnv) (ds : List SourceDoc) (isNew : Prop) : Prop where
  kind : LastGives SourceDoc.kind "" ds
  description : LastGives SourceDoc.description "" ds
  params : LastGives (fun d => d.params.map fun p => env.marshal (some p)) (env.marshal none) ds
  isEnabled : Agree SourceDoc.isEnabled ds
  restated : isNew → Restates SourceDoc.isEnabled (orDefault false true) ds

/-- The same of a load. The only entry of a new row states no empty schema, no empty
    watermark type and no batch size 0. -/
structure LoadsKept (ds : List LoadDoc) (isNew : Prop) : Prop where
  source : LastGives LoadDoc.source "" ds
  cronExpression : LastGives LoadDoc.cronExpression "" ds
  mode : LastGives LoadDoc.mode "" ds
  objectName : LastGives LoadDoc.objectName "" ds
  watermarkColumn : LastGives LoadDoc.watermarkColumn "" ds
  watermarkType : LastGives LoadDoc.watermarkType "" ds
  targetSchema : LastGives LoadDoc.targetSchema "" ds
  targetTable : LastGives LoadDoc.targetTable "" ds
  batchSize : LastGives LoadDoc.batchSize 0 ds
  autoCreateTable : Agree LoadDoc.autoCreateTable ds
  isEnabled : Agree LoadDoc.isEnabled ds
  single : isNew → SingleGives LoadDoc.watermarkType (orDefault "" "none") ds ∧
    SingleGives LoadDoc.targetSchema (orDefault "" "dbo") ds ∧
    SingleGives LoadDoc.batchSize (orDefault 0 1000) ds
  restated : isNew → Restates LoadDoc.autoCreateTable (orDefault false true) ds ∧
    Restates LoadDoc.isEnabled (orDefault false true) ds

/-- No value for which `Create` or a default of the loop stores another one. -/
structure ModbusTagDoc.Kept (d : ModbusTagDoc) : Prop where
  unitID : d.unitID ≠ some 0
  quantity : d.quantity ≠ some 0
  byteOrder : d.byteOrder ≠ some ""
  wordOrder : d.wordOrder ≠ some ""
  scale : d.scale ≠ some 0
  isEnabled : d.isEnabled ≠ some false

structure OPCUANodeDoc.Kept (d : OPCUANodeDoc) : Prop where
  scale : d.scale ≠ some 0
  isEnabled : d.isEnabled ≠ some false

/-- The file states nothing that is stored as something else. -/
structure FileDoc.Kept (env : SeedEnv) (f : FileDoc) (db : SeedDB) : Prop where
  sources : ∀ name, SourcesKept env (f.sourcesOf name)
    (sourceModel.first db.tables.sources name = none)
  loads : ∀ name, LoadsKept (f.loadsOf name) (loadModel.first db.tables.loads name = none)
  tags : ∀ d ∈ f.modbusTags, d.Kept
  nodes : ∀ d ∈ f.opcuaNodes, d.Kept

/-! ## Sources -/

section

variable {env : SeedEnv} {V : Type}

/-- What the entries of a source do to a field of its row. -/
theorem SourceDoc.write_eq {field : Field SourceDoc V} {get : SourceRecord → V}
    (hnew : ∀ d id json, env.marshal d.params = .ok json →
      get (sourceCreated id (d.decode.fresh json)) = field.created d)
    (hold : ∀ d json r, env.marshal d.params = .ok json →
      get (d.decode.onto json r) = field.updated d (get r)) :
    ∀ d o s, d.decode.Stores env o s → get s = field.write d (o.map get) := by
  rintro d o s ⟨-, -, json, hjson, hs⟩
  cases o with
  | none =>
    obtain ⟨id, rfl⟩ := hs
    exact hnew d id json hjson
  | some r =>
    rw [show s = d.decode.onto json r from hs]
    exact hold d json r hjson

theorem singleGives_id {D : Type} (stated : D → Option V) (ds : List D) : SingleGives stated id ds :=
  fun _ _ _ _ => rfl

theorem getD_marshal (d : SourceDoc) :
    (d.params.map fun p => env.marshal (some p)).getD (env.marshal none) = env.marshal d.params := by
  cases d.params <;> rfl

/-- The row of a source has every stated value. -/
theorem sources_stored_iff {ds : List SourceDoc} {old new : Option SourceRecord}
    (h : Chain (fun d => d.decode.Stores env) ds old new)
    (hname : ∀ d ∈ ds, ∀ s, new = some s → s.name = d.decode.name) :
    (∀ d ∈ ds, ∃ s, new = some s ∧ d.StatedIn env s) ↔ SourcesKept env ds (old = none) := by
  have hkind := h.plain_iff (·.kind) SourceDoc.kind "" id
    (SourceDoc.write_eq (fun _ _ _ _ => rfl) fun _ _ _ _ => rfl)
  have hdescription := h.plain_iff (·.description) SourceDoc.description "" id
    (SourceDoc.write_eq (fun _ _ _ _ => rfl) fun _ _ _ _ => rfl)
  have hparams := h.plain_iff (fun s => (.ok s.paramsJSON : Except Err String))
    (fun d => d.params.map fun p => env.marshal (some p)) (env.marshal none) id
    (SourceDoc.write_eq (fun d _ _ hjson => ((getD_marshal d).trans hjson).symm)
      fun d _ _ hjson => ((getD_marshal d).trans hjson).symm)
  have hisEnabled := h.optional_iff (·.isEnabled) SourceDoc.isEnabled true (orDefault false true)
    (SourceDoc.write_eq (fun _ _ _ _ => rfl) fun _ _ _ _ => rfl)
  constructor
  · intro hstored
    have hall : ∀ d ∈ ds, ∀ s, new = some s → d.StatedIn env s := by
      intro d hd s hs
      obtain ⟨s', hs', hstated⟩ := hstored d hd
      rwa [Option.some.inj (hs.symm.trans hs')]
    have henabled := hisEnabled.1 fun d hd s hs => (hall d hd s hs).isEnabled
    refine ⟨(hkind.1 fun d hd s hs => (hall d hd s hs).kind).1,
      (hdescription.1 fun d hd s hs => (hall d hd s hs).description).1,
      (hparams.1 fun d hd s hs v hv => ?_).1, henabled.1, henabled.2⟩
    obtain ⟨p, hp, rfl⟩ := Option.map_eq_some_iff.1 hv
    exact ((hall d hd s hs).params p hp).symm
  · intro hkept d hd
    obtain ⟨s, hs⟩ := h.exists_row (List.ne_nil_of_mem hd)
    refine ⟨s, hs, ?_, ?_, ?_, ?_, ?_⟩
    · intro v hv
      rw [hname d hd s hs]
      show d.name.getD "" = v
      rw [hv, Option.getD_some]
    · exact hkind.2 ⟨hkept.kind, fun _ => singleGives_id _ _⟩ d hd s hs
    · exact hdescription.2 ⟨hkept.description, fun _ => singleGives_id _ _⟩ d hd s hs
    · exact hisEnabled.2 ⟨hkept.isEnabled, hkept.restated⟩ d hd s hs
    · intro p hp
      exact (hparams.2 ⟨hkept.params, fun _ => singleGives_id _ _⟩ d hd s hs _
        (Option.map_eq_some_iff.2 ⟨p, hp, rfl⟩)).symm

/-! ## Loads -/

/-- What the entries of a load do to a field of its row. -/
theorem LoadDoc.write_eq {sources : List SourceRecord} {field : Field LoadDoc V}
    {get : LoadRecord → V}
    (hnew : ∀ d id src, sourceModel.first sources d.decode.source = some src →
      get (loadCreated id (d.decode.fresh src.id)) = field.created d)
    (hold : ∀ d src r, sourceModel.first sources d.decode.source = some src →
      get (d.decode.onto src.id r) = field.updated d (get r)) :
    ∀ d o l, d.decode.Stores env sources o l → get l = field.write d (o.map get) := by
  rintro d o l ⟨-, -, src, hsrc, hl⟩
  cases o with
  | none =>
    obtain ⟨id, rfl⟩ := hl
    exact hnew d id src hsrc
  | some r =>
    rw [show l = d.decode.onto src.id r from hl]
    exact hold d src r hsrc

/-- The id of the source with a name. -/
def sourceIDOf (sources : List SourceRecord) (name : String) : Option Int :=
  (sourceModel.first sources name).map (·.id)

theorem getD_sourceIDOf (sources : List SourceRecord) (d : LoadDoc) :
    (d.source.map (sourceIDOf sources)).getD (sourceIDOf sources "") =
      sourceIDOf sources d.decode.source := by
  cases hd : d.source <;> simp [LoadDoc.decode, hd]

/-- Sources with the same id have the same name. -/
theorem sourceIDOf_inj {sources : List SourceRecord} {next : Int} (hv : sourceModel.Valid sources next)
    {name name' : String} {s : SourceRecord} (hs : sourceModel.first sources name = some s)
    (h : sourceIDOf sources name' = sourceIDOf sources name) : name' = name := by
  rw [sourceIDOf, sourceIDOf, hs] at h
  obtain ⟨s', hs', hid⟩ := Option.map_eq_some_iff.1 h
  by_contra hne
  exact hv.id_ne hs hs' hne hid

/-- The source of a load is the one that every entry states. -/
theorem sourceID_stored_iff {sources : List SourceRecord} {next : Int}
    (hv : sourceModel.Valid sources next) {ds : List LoadDoc} {old new : Option LoadRecord}
    (h : Chain (fun d => d.decode.Stores env sources) ds old new) :
    (∀ d ∈ ds, ∀ l, new = some l → ∀ name, d.source = some name →
      ∃ s, sourceModel.first sources name = some s ∧ l.sourceID = s.id) ↔
      LastGives LoadDoc.source "" ds := by
  have hfound : ∀ d ∈ ds, ∃ s, sourceModel.first sources d.decode.source = some s := by
    intro d hd
    obtain ⟨o, l, -, -, s, hs, -⟩ := h.exists_write hd
    exact ⟨s, hs⟩
  have hid : ∀ (d : LoadDoc) (src : SourceRecord),
      sourceModel.first sources d.decode.source = some src → some src.id =
      (d.source.map (sourceIDOf sources)).getD (sourceIDOf sources "") := by
    intro d src hsrc
    rw [getD_sourceIDOf, sourceIDOf, hsrc]
    rfl
  have hfield := h.plain_iff (fun l => some l.sourceID) (fun d => d.source.map (sourceIDOf sources))
    (sourceIDOf sources "") id
    (LoadDoc.write_eq (fun d _ src hsrc => hid d src hsrc) fun d src _ hsrc => hid d src hsrc)
  have hdecode : ∀ {d : LoadDoc} {name : String}, d.source = some name → d.decode.source = name := by
    intro d name hd
    simp [LoadDoc.decode, hd]
  constructor
  · intro hstored e he d hd name hname
    have hlast := (hfield.1 ?_).1 e he d hd (sourceIDOf sources name)
      (congrArg (Option.map (sourceIDOf sources)) hname)
    · rw [getD_sourceIDOf] at hlast
      obtain ⟨s, hs⟩ := hfound d hd
      rw [hdecode hname] at hs
      exact sourceIDOf_inj hv hs hlast
    · intro d hd l hl v hv
      obtain ⟨name, hname, rfl⟩ := Option.map_eq_some_iff.1 hv
      obtain ⟨s, hs, hid⟩ := hstored d hd l hl name hname
      rw [sourceIDOf, hs, hid]
      rfl
  · intro hlast d hd l hl name hname
    have hstored := hfield.2 ⟨?_, fun _ => singleGives_id _ _⟩ d hd l hl (sourceIDOf sources name)
      (congrArg (Option.map (sourceIDOf sources)) hname)
    · obtain ⟨s, hs⟩ := hfound d hd
      rw [hdecode hname] at hs
      rw [sourceIDOf, hs] at hstored
      exact ⟨s, hs, Option.some.inj hstored⟩
    · intro e he d hd v hv
      obtain ⟨name, hname, rfl⟩ := Option.map_eq_some_iff.1 hv
      rw [getD_sourceIDOf]
      exact congrArg _ (hlast e he d hd name hname)

/-- The row of a load has every stated value. -/
theorem loads_stored_iff {sources : List SourceRecord} {next : Int}
    (hv : sourceModel.Valid sources next) {ds : List LoadDoc} {old new : Option LoadRecord}
    (h : Chain (fun d => d.decode.Stores env sources) ds old new)
    (hname : ∀ d ∈ ds, ∀ l, new = some l → l.name = d.decode.name) :
    (∀ d ∈ ds, ∃ l, new = some l ∧ d.StatedIn sources l) ↔ LoadsKept ds (old = none) := by
  have hsource := sourceID_stored_iff hv h
  have hcronExpression := h.plain_iff (·.cronExpression) LoadDoc.cronExpression "" id
    (LoadDoc.write_eq (fun _ _ _ _ => rfl) fun _ _ _ _ => rfl)
  have hmode := h.plain_iff (·.mode) LoadDoc.mode "" id
    (LoadDoc.write_eq (fun _ _ _ _ => rfl) fun _ _ _ _ => rfl)
  have hobjectName := h.plain_iff (·.objectName) LoadDoc.objectName "" id
    (LoadDoc.write_eq (fun _ _ _ _ => rfl) fun _ _ _ _ => rfl)
  have hwatermarkColumn := h.plain_iff (·.watermarkColumn) LoadDoc.watermarkColumn "" id
    (LoadDoc.write_eq (fun _ _ _ _ => rfl) fun _ _ _ _ => rfl)
  have hwatermarkType := h.plain_iff (·.watermarkType) LoadDoc.watermarkType ""
    (orDefault "" "none") (LoadDoc.write_eq (fun _ _ _ _ => rfl) fun _ _ _ _ => rfl)
  have htargetSchema := h.plain_iff (·.targetSchema) LoadDoc.targetSchema ""
    (orDefault "" "dbo") (LoadDoc.write_eq (fun _ _ _ _ => rfl) fun _ _ _ _ => rfl)
  have htargetTable := h.plain_iff (·.targetTable) LoadDoc.targetTable "" id
    (LoadDoc.write_eq (fun _ _ _ _ => rfl) fun _ _ _ _ => rfl)
  have hbatchSize := h.plain_iff (·.batchSize) LoadDoc.batchSize 0 (orDefault 0 1000)
    (LoadDoc.write_eq (fun _ _ _ _ => rfl) fun _ _ _ _ => rfl)
  have hautoCreateTable := h.optional_iff (·.autoCreateTable) LoadDoc.autoCreateTable true
    (orDefault false true) (LoadDoc.write_eq (fun _ _ _ _ => rfl) fun _ _ _ _ => rfl)
  have hisEnabled := h.optional_iff (·.isEnabled) LoadDoc.isEnabled true (orDefault false true)
    (LoadDoc.write_eq (fun _ _ _ _ => rfl) fun _ _ _ _ => rfl)
  constructor
  · intro hstored
    have hall : ∀ d ∈ ds, ∀ l, new = some l → d.StatedIn sources l := by
      intro d hd l hl
      obtain ⟨l', hl', hstated⟩ := hstored d hd
      rwa [Option.some.inj (hl.symm.trans hl')]
    have htype := hwatermarkType.1 fun d hd l hl => (hall d hd l hl).watermarkType
    have hschema := htargetSchema.1 fun d hd l hl => (hall d hd l hl).targetSchema
    have hsize := hbatchSize.1 fun d hd l hl => (hall d hd l hl).batchSize
    have hcreate := hautoCreateTable.1 fun d hd l hl => (hall d hd l hl).autoCreateTable
    have henabled := hisEnabled.1 fun d hd l hl => (hall d hd l hl).isEnabled
    exact {
      source := hsource.1 fun d hd l hl => (hall d hd l hl).source
      cronExpression := (hcronExpression.1 fun d hd l hl => (hall d hd l hl).cronExpression).1
      mode := (hmode.1 fun d hd l hl => (hall d hd l hl).mode).1
      objectName := (hobjectName.1 fun d hd l hl => (hall d hd l hl).objectName).1
      watermarkColumn := (hwatermarkColumn.1 fun d hd l hl => (hall d hd l hl).watermarkColumn).1
      watermarkType := htype.1
      targetSchema := hschema.1
      targetTable := (htargetTable.1 fun d hd l hl => (hall d hd l hl).targetTable).1
      batchSize := hsize.1
      autoCreateTable := hcreate.1
      isEnabled := henabled.1
      single := fun hold => ⟨htype.2 hold, hschema.2 hold, hsize.2 hold⟩
      restated := fun hold => ⟨hcreate.2 hold, henabled.2 hold⟩ }
  · intro hkept d hd
    obtain ⟨l, hl⟩ := h.exists_row (List.ne_nil_of_mem hd)
    have htext : Says d.name l.name := by
      intro v hv
      rw [hname d hd l hl]
      show d.name.getD "" = v
      rw [hv, Option.getD_some]
    exact ⟨l, hl, {
      name := htext
      source := hsource.2 hkept.source d hd l hl
      cronExpression :=
        hcronExpression.2 ⟨hkept.cronExpression, fun _ => singleGives_id _ _⟩ d hd l hl
      mode := hmode.2 ⟨hkept.mode, fun _ => singleGives_id _ _⟩ d hd l hl
      objectName := hobjectName.2 ⟨hkept.objectName, fun _ => singleGives_id _ _⟩ d hd l hl
      watermarkColumn :=
        hwatermarkColumn.2 ⟨hkept.watermarkColumn, fun _ => singleGives_id _ _⟩ d hd l hl
      watermarkType :=
        hwatermarkType.2 ⟨hkept.watermarkType, fun hold => (hkept.single hold).1⟩ d hd l hl
      targetSchema :=
        htargetSchema.2 ⟨hkept.targetSchema, fun hold => (hkept.single hold).2.1⟩ d hd l hl
      targetTable := htargetTable.2 ⟨hkept.targetTable, fun _ => singleGives_id _ _⟩ d hd l hl
      batchSize := hbatchSize.2 ⟨hkept.batchSize, fun hold => (hkept.single hold).2.2⟩ d hd l hl
      autoCreateTable :=
        hautoCreateTable.2 ⟨hkept.autoCreateTable, fun hold => (hkept.restated hold).1⟩ d hd l hl
      isEnabled :=
        hisEnabled.2 ⟨hkept.isEnabled, fun hold => (hkept.restated hold).2⟩ d hd l hl }⟩

/-! ## Tags and nodes -/

theorem says_getD {α : Type} (p : Option α) (x : α) : Says p (p.getD x) := by
  intro v hv
  rw [hv, Option.getD_some]

/-- A stated value is stored unless it is the one that a default replaces. -/
theorem says_orDefault_iff {α : Type} [DecidableEq α] {zero default x : α} (h : zero ≠ default)
    (p : Option α) : Says p (orDefault zero default (p.getD x)) ↔ p ≠ some zero := by
  cases p with
  | none => simp [Says]
  | some v => simp [Says, orDefault_eq_iff h]

theorem orDefault_stringOr (v default : String) :
    orDefault "" default (stringOr v default) = orDefault "" default v := by
  unfold stringOr
  split_ifs with hv
  · simp [orDefault, hv]
  · rfl

/-- Each row is what is made of its entry, so the entries decide. -/
theorem forall₂_iff_forall {T C : Type} {Q P : T → C → Prop} {K : T → Prop} {ts : List T}
    {rows : List C} (h : List.Forall₂ Q ts rows) (hiff : ∀ t c, Q t c → (P t c ↔ K t)) :
    List.Forall₂ P ts rows ↔ ∀ t ∈ ts, K t := by
  induction h with
  | nil => simp
  | cons hq _ ih => rw [List.forall₂_cons, ih, hiff _ _ hq, List.forall_mem_cons]

variable [GoLib] [GoText]

omit [GoLib] in
/-- A quantity that is stated as zero is replaced by one that fits the data type. -/
theorem says_quantity_iff (d : ModbusTagDoc) :
    Says d.quantity (orDefault 0 1 (defaultQuantity d.decode)) ↔ d.quantity ≠ some 0 := by
  cases hq : d.quantity with
  | none => simp [Says]
  | some q =>
    have hdecode : d.decode.quantity = q := by simp [ModbusTagDoc.decode, hq]
    by_cases hzero : q = 0
    · have hne : orDefault 0 1 (defaultQuantity d.decode) ≠ 0 := by
        unfold defaultQuantity
        rw [hdecode, hzero]
        dsimp only
        split_ifs <;> decide
      constructor
      · intro htext
        exact absurd ((htext q rfl).trans hzero) hne
      · intro hq'
        exact absurd (congrArg some hzero) hq'
    · have hpos : d.decode.quantity > 0 := by
        rw [hdecode]
        exact UInt16.pos_iff_ne_zero.2 hzero
      have hstored : orDefault 0 1 (defaultQuantity d.decode) = q := by
        rw [defaultQuantity, if_pos hpos, hdecode, orDefault, if_neg hzero]
      rw [hstored]
      simp [Says, hzero]

/-- The row of a tag. -/
theorem modbusTag_stored_iff {d : ModbusTagDoc} {loadID : Int} {r : ModbusTag}
    (h : modbusTagRow loadID d.decode = .ok r) (n : ℕ) :
    d.StatedIn (modbusOwned.setID n (modbusTagCreated r)) ↔ d.Kept := by
  have hbyte : Says d.byteOrder (orDefault "" "big" (stringOr d.decode.byteOrder "big")) ↔
      d.byteOrder ≠ some "" := by
    rw [orDefault_stringOr]
    exact says_orDefault_iff (by decide) d.byteOrder
  have hword : Says d.wordOrder (orDefault "" "high_first" (stringOr d.decode.wordOrder "high_first")) ↔
      d.wordOrder ≠ some "" := by
    rw [orDefault_stringOr]
    exact says_orDefault_iff (by decide) d.wordOrder
  unfold modbusTagRow at h
  split_ifs at h
  cases h
  constructor
  · intro hstated
    exact ⟨(says_orDefault_iff (by decide) d.unitID).1 hstated.unitID,
      (says_quantity_iff d).1 hstated.quantity, hbyte.1 hstated.byteOrder,
      hword.1 hstated.wordOrder, (says_orDefault_iff (by decide) d.scale).1 hstated.scale,
      (says_orDefault_iff (by decide) d.isEnabled).1 hstated.isEnabled⟩
  · intro hkept
    exact {
      tagName := says_getD _ _
      correlationID := says_getD _ _
      unitID := (says_orDefault_iff (by decide) d.unitID).2 hkept.unitID
      registerType := says_getD _ _
      address := says_getD _ _
      quantity := (says_quantity_iff d).2 hkept.quantity
      dataType := says_getD _ _
      byteOrder := hbyte.2 hkept.byteOrder
      wordOrder := hword.2 hkept.wordOrder
      scale := (says_orDefault_iff (by decide) d.scale).2 hkept.scale
      offset := says_getD _ _
      isEnabled := (says_orDefault_iff (by decide) d.isEnabled).2 hkept.isEnabled }

omit [GoLib] [GoText] in
/-- The row of a node. -/
theorem opcuaNode_stored_iff {d : OPCUANodeDoc} {loadID : Int} {r : OPCUANode}
    (h : opcuaNodeRow loadID d.decode = .ok r) (n : ℕ) :
    d.StatedIn (opcuaOwned.setID n (opcuaNodeCreated r)) ↔ d.Kept := by
  unfold opcuaNodeRow at h
  split_ifs at h
  cases h
  constructor
  · intro hstated
    exact ⟨(says_orDefault_iff (by decide) d.scale).1 hstated.scale,
      (says_orDefault_iff (by decide) d.isEnabled).1 hstated.isEnabled⟩
  · intro hkept
    exact {
      tagName := says_getD _ _
      nodeID := says_getD _ _
      scale := (says_orDefault_iff (by decide) d.scale).2 hkept.scale
      offset := says_getD _ _
      isEnabled := (says_orDefault_iff (by decide) d.isEnabled).2 hkept.isEnabled }

/-! ## The whole file -/

omit [GoLib] [GoText] in
theorem modbusByLoad_decode (f : FileDoc) (load : String) :
    f.decode.modbusByLoad load = (f.tagsOf load).map (·.decode) := by
  rw [File.modbusByLoad, FileDoc.decode, List.filter_map]
  rfl

omit [GoLib] [GoText] in
theorem opcuaByLoad_decode (f : FileDoc) (load : String) :
    f.decode.opcuaByLoad load = (f.nodesOf load).map (·.decode) := by
  rw [File.opcuaByLoad, FileDoc.decode, List.filter_map]
  rfl

omit [GoLib] [GoText] in
/-- The rows of a load have what their entries state. -/
theorem list_stored_iff {T S C : Type} {w : Owned C} {decode : T → S} {row : S → Except Err C}
    {created : C → C} {refuse : C → Option Err} {P : T → C → Prop} {K : T → Prop}
    (hrow : ∀ t c n, row (decode t) = .ok c → (P t (w.setID n (created c)) ↔ K t)) {ts : List T}
    {rows new : List C} {o : Int} {n : ℕ}
    (hnew : rowsToCreate row created refuse (ts.map decode) = .ok new)
    (hrows : w.rowsOf rows o = w.numbered n new) :
    List.Forall₂ P ts (w.rowsOf rows o) ↔ ∀ t ∈ ts, K t := by
  rw [hrows]
  refine forall₂_iff_forall
    (Owned.forall₂_numbered (List.forall₂_map_left_iff.1 (forall₂_of_rowsToCreate hnew))) ?_
  rintro t _ ⟨n, _, ⟨c, hc, rfl⟩, rfl⟩
  exact hrow t c n hc

omit [GoLib] [GoText] in
/-- From the rows of each load to all tags or nodes of the file. -/
theorem lists_stored_iff {T C : Type} {w : Owned C} {loads : List LoadRecord} {rows : List C}
    {ts : List T} {loadOf : T → String} {P : T → C → Prop} {K : T → Prop}
    (hload : ∀ load, (ts.filter fun t => loadOf t == load) ≠ [] →
      ∃ l, loadModel.first loads load = some l ∧
        (List.Forall₂ P (ts.filter fun t => loadOf t == load) (w.rowsOf rows l.id) ↔
          ∀ t ∈ ts.filter fun t => loadOf t == load, K t)) :
    (∀ load, (ts.filter fun t => loadOf t == load) ≠ [] →
      ∃ l, loadModel.first loads load = some l ∧
        List.Forall₂ P (ts.filter fun t => loadOf t == load) (w.rowsOf rows l.id)) ↔
      ∀ t ∈ ts, K t := by
  constructor
  · intro hstored t ht
    have hmem : t ∈ ts.filter fun t' => loadOf t' == loadOf t :=
      List.mem_filter.2 ⟨ht, beq_self_eq_true _⟩
    obtain ⟨l, hl, hforall⟩ := hstored _ (List.ne_nil_of_mem hmem)
    obtain ⟨l', hl', hiff⟩ := hload _ (List.ne_nil_of_mem hmem)
    rw [← Option.some.inj (hl.symm.trans hl')] at hiff
    exact hiff.1 hforall t hmem
  · intro hkept load hne
    obtain ⟨l, hl, hiff⟩ := hload load hne
    exact ⟨l, hl, hiff.2 fun t ht => hkept t (List.mem_filter.1 ht).1⟩

variable {f : FileDoc} {db db₁ : SeedDB}

theorem tags_stored_iff (h : Applies env f.decode db db₁) :
    (∀ load, f.tagsOf load ≠ [] → ∃ l, loadModel.first db₁.tables.loads load = some l ∧
      List.Forall₂ ModbusTagDoc.StatedIn (f.tagsOf load)
        (modbusOwned.rowsOf db₁.tables.modbusTags l.id)) ↔ ∀ d ∈ f.modbusTags, d.Kept := by
  refine lists_stored_iff fun load hne => ?_
  have hlisted : f.decode.modbusByLoad load ≠ [] := by
    rw [modbusByLoad_decode]
    exact fun hnil => hne (List.map_eq_nil_iff.1 hnil)
  obtain ⟨spec, hspec, rfl⟩ :=
    List.mem_map.1 ((declared_of_references h.references load).1 hlisted)
  obtain ⟨l, hl, hrows⟩ := h.tags.listed (fun _ _ _ hnew c hc => (tagsCreated_ok hnew c hc).2)
    h.valid.loads hspec
  obtain ⟨new, n, hnew, hrows⟩ := hrows hlisted
  rw [modbusByLoad_decode] at hnew
  exact ⟨l, hl, list_stored_iff (fun t c n hc => modbusTag_stored_iff hc n) hnew hrows⟩

theorem nodes_stored_iff (h : Applies env f.decode db db₁) :
    (∀ load, f.nodesOf load ≠ [] → ∃ l, loadModel.first db₁.tables.loads load = some l ∧
      List.Forall₂ OPCUANodeDoc.StatedIn (f.nodesOf load)
        (opcuaOwned.rowsOf db₁.tables.opcuaNodes l.id)) ↔ ∀ d ∈ f.opcuaNodes, d.Kept := by
  refine lists_stored_iff fun load hne => ?_
  have hlisted : f.decode.opcuaByLoad load ≠ [] := by
    rw [opcuaByLoad_decode]
    exact fun hnil => hne (List.map_eq_nil_iff.1 hnil)
  obtain ⟨spec, hspec, rfl⟩ :=
    List.mem_map.1 ((declared_of_references h.references load).2 hlisted)
  obtain ⟨l, hl, hrows⟩ := h.nodes.listed (fun _ _ _ hnew c hc => (nodesCreated_ok hnew c hc).2)
    h.valid.loads hspec
  obtain ⟨new, n, hnew, hrows⟩ := hrows hlisted
  rw [opcuaByLoad_decode] at hnew
  exact ⟨l, hl, list_stored_iff (fun t c n hc => opcuaNode_stored_iff hc n) hnew hrows⟩

omit [GoLib] [GoText] in
/-- A value that no default replaces. -/
theorem orDefault_eq_of_ne {α : Type} [DecidableEq α] {zero default : α} {p : Option α}
    (h : p ≠ some zero) : ∀ v, p = some v → orDefault zero default v = v := by
  intro v hv
  rw [orDefault, if_neg]
  rintro rfl
  exact h hv

omit [GoLib] [GoText] in
/-- A source with one entry. -/
theorem SourcesKept.of_single {ds : List SourceDoc} {d : SourceDoc} (hds : ∀ e ∈ ds, e = d)
    (hisEnabled : d.isEnabled ≠ some false) (isNew : Prop) : SourcesKept env ds isNew :=
  ⟨lastGives_of_single hds, lastGives_of_single hds, lastGives_of_single hds, agree_of_single hds,
    fun _ => restates_of_single hds (orDefault_eq_of_ne hisEnabled)⟩

omit [GoLib] [GoText] in
/-- A load with one entry. -/
theorem LoadsKept.of_single {ds : List LoadDoc} {d : LoadDoc} (hds : ∀ e ∈ ds, e = d)
    (hwatermarkType : d.watermarkType ≠ some "") (htargetSchema : d.targetSchema ≠ some "")
    (hbatchSize : d.batchSize ≠ some 0) (hautoCreateTable : d.autoCreateTable ≠ some false)
    (hisEnabled : d.isEnabled ≠ some false) (isNew : Prop) : LoadsKept ds isNew where
  source := lastGives_of_single hds
  cronExpression := lastGives_of_single hds
  mode := lastGives_of_single hds
  objectName := lastGives_of_single hds
  watermarkColumn := lastGives_of_single hds
  watermarkType := lastGives_of_single hds
  targetSchema := lastGives_of_single hds
  targetTable := lastGives_of_single hds
  batchSize := lastGives_of_single hds
  autoCreateTable := agree_of_single hds
  isEnabled := agree_of_single hds
  single _ := ⟨singleGives_of_single hds (orDefault_eq_of_ne hwatermarkType),
    singleGives_of_single hds (orDefault_eq_of_ne htargetSchema),
    singleGives_of_single hds (orDefault_eq_of_ne hbatchSize)⟩
  restated _ := ⟨restates_of_single hds (orDefault_eq_of_ne hautoCreateTable),
    restates_of_single hds (orDefault_eq_of_ne hisEnabled)⟩

/-- Let a file be applied without an error. Every value that it states is stored, if and
    only if it states nothing that is stored as something else. -/
theorem stated_values_stored_iff {unmarshal : FileDoc → File} (hyaml : Unmarshals unmarshal)
    {rep : Report} (hv : db.Valid) (h : apply env (unmarshal f) db = (rep, none, db₁)) :
    f.StoredIn env db₁ ↔ f.Kept env db := by
  rw [hyaml] at h
  have hap := apply_applies hv h
  have hsources : ∀ name, (∀ d ∈ f.sourcesOf name, ∃ s,
      sourceModel.first db₁.tables.sources name = some s ∧ d.StatedIn env s) ↔
      SourcesKept env (f.sourcesOf name) (sourceModel.first db.tables.sources name = none) := by
    intro name
    refine sources_stored_iff (hap.sources.chain name) fun d hd s hs => ?_
    rw [of_decide_eq_true (List.mem_filter.1 hd).2]
    exact Model.key_of_first hs
  have hloads : ∀ name, (∀ d ∈ f.loadsOf name, ∃ l,
      loadModel.first db₁.tables.loads name = some l ∧ d.StatedIn db₁.tables.sources l) ↔
      LoadsKept (f.loadsOf name) (loadModel.first db.tables.loads name = none) := by
    intro name
    refine loads_stored_iff hap.valid.sources (hap.loads.chain name) fun d hd l hl => ?_
    rw [of_decide_eq_true (List.mem_filter.1 hd).2]
    exact Model.key_of_first hl
  constructor
  · intro hstored
    exact ⟨fun name => (hsources name).1 (hstored.sources name),
      fun name => (hloads name).1 (hstored.loads name),
      (tags_stored_iff hap).1 hstored.tags, (nodes_stored_iff hap).1 hstored.nodes⟩
  · intro hkept
    exact ⟨fun name => (hsources name).2 (hkept.sources name),
      fun name => (hloads name).2 (hkept.loads name),
      (tags_stored_iff hap).2 hkept.tags, (nodes_stored_iff hap).2 hkept.nodes⟩

end

/-! ## Two files -/

section

attribute [local instance] GoLib.ascii GoText.ascii

/-- A source, a load and a tag that state the given values. -/
def plantDoc (isEnabled autoCreateTable : Bool) (batchSize : Int) (unitID : UInt8) (scale : UInt64) :
    FileDoc where
  sources := [{ name := some "plant", kind := some "modbus", isEnabled := some isEnabled }]
  loads := [{ name := some "temps", source := some "plant", mode := some "append"
              batchSize := some batchSize, autoCreateTable := some autoCreateTable }]
  modbusTags := [{ load := some "temps", tagName := some "t1", registerType := some "holding"
                   dataType := some "int16", unitID := some unitID, scale := some scale }]

theorem plantDoc_stored : ∃ rep db₁,
    apply plainEnv (plantDoc true true 500 7 one).decode {} = (rep, none, db₁) ∧
    (plantDoc true true 500 7 one).StoredIn plainEnv db₁ := by
  have hnone : (apply plainEnv (plantDoc true true 500 7 one).decode {}).2.1 = none := by
    decide +kernel
  have h : apply plainEnv (plantDoc true true 500 7 one).decode {} =
      ((apply plainEnv (plantDoc true true 500 7 one).decode {}).1, none,
        (apply plainEnv (plantDoc true true 500 7 one).decode {}).2.2) := by rw [← hnone]
  have hempty : SeedDB.Valid {} :=
    ⟨⟨List.nodup_nil, List.nodup_nil, by simp⟩, ⟨List.nodup_nil, List.nodup_nil, by simp⟩⟩
  refine ⟨_, _, h, (stated_values_stored_iff (fun _ => rfl) hempty h).2 ⟨fun name => ?_, fun name => ?_, ?_, ?_⟩⟩
  · exact .of_single (fun d hd => List.mem_singleton.1 (List.mem_filter.1 hd).1) (by decide) _
  · exact .of_single (fun d hd => List.mem_singleton.1 (List.mem_filter.1 hd).1) (by decide)
      (by decide) (by decide) (by decide) (by decide) _
  · intro d hd
    obtain rfl := List.mem_singleton.1 hd
    exact ⟨by decide, by decide, by decide, by decide, by decide, by decide⟩
  · intro d hd
    exact absurd hd List.not_mem_nil

/-- A new source that is stated as disabled is enabled; a new load and a tag have other
    values than the ones that are stated, too. -/
theorem zero_values_not_stored :
    let r := apply plainEnv (plantDoc false false 0 0 0).decode {}
    r.2.1 = none ∧ r.2.2.tables.sources.map (·.isEnabled) = [true] ∧
      r.2.2.tables.loads.map (fun l => (l.autoCreateTable, l.batchSize)) = [(true, 1000)] ∧
      r.2.2.tables.modbusTags.map (fun t => (t.unitID, t.scale)) = [(1, one)] := by
  decide +kernel

end

end DataLoader.Seed
