import DataLoader.GoText
import DataLoader.Pipeline.Runner

/-!
# The OPC UA source

Model of `internal/sources/opcua/source.go`. The calls on the telemetry catalogue,
on the OPC UA client and on the metrics are the driver calls of the module
(`OpcuaCall`).
-/

namespace DataLoader

open Effects

/-- `contracts.OPCUAPoint`; scale and offset are `float64` bit patterns. -/
structure OPCUAPoint where
  tagName : String
  nodeID : String
  scale : UInt64
  offset : UInt64
  deriving DecidableEq, Repr

/-- The Go value of a `ua.Variant`. `int` is any of the eight integer types and
    `other` any further type, by its text under `%v`. -/
inductive OpcuaValue
  | null
  | bool (b : Bool)
  | string (s : List UInt8)
  | float32 (bits : UInt32)
  | float64 (bits : UInt64)
  | int (i : Int)
  | time (t : Time)
  | other (text : List UInt8)
  deriving DecidableEq, Repr

/-- `ua.DataValue`; a timestamp that is not set is `none`, as is a nil `Value`. -/
structure DataValue where
  status : UInt32
  value : Option OpcuaValue
  sourceTimestamp : Option Time := none
  serverTimestamp : Option Time := none
  deriving DecidableEq, Repr

/-- What the code uses of the package `ua`. -/
class GoOpcua where
  /-- Whether `ua.ParseNodeID` accepts a text. -/
  parsesNodeID : String → Bool
  /-- `ua.StatusCode.Error`. -/
  statusText : UInt32 → String

/-- The texts `ns=..;s=..` and `ns=..;i=..` of a node id; the namespace may be missing. -/
def plainNodeID (s : List Char) : Bool :=
  let number (ds : List Char) (bits : ℕ) : Bool :=
    decide (ds ≠ []) && ds.all Char.isDigit &&
      decide (ds.foldl (fun n d => 10 * n + (d.toNat - 48)) 0 < 2 ^ bits)
  let (ns, id) := match s.dropWhile (· ≠ ';') with
    | [] => (['n', 's', '=', '0'], s)
    | _ :: id => (s.takeWhile (· ≠ ';'), id)
  (match ns with
    | 'n' :: 's' :: '=' :: ds => number ds 16
    | _ => false) &&
  match id with
  | 's' :: '=' :: _ => true
  | 'i' :: '=' :: ds => number ds 32
  | _ => false

/-- Enough of the package to evaluate the model. `ua.ParseNodeID` accepts the empty text. -/
@[reducible] def GoOpcua.plain : GoOpcua where
  parsesNodeID s := decide (s = "") || plainNodeID s.toList
  statusText s := "status " ++ toString s.toNat

/-- The calls of the module. A node is requested by the text of its id. -/
inductive OpcuaCall
  | listOPCUANodes (loadID : Int)
  | now
  | read (nodesToRead : List String)
  | observeBadQuality (load : String) (bad : ℕ)

/-- The results of these calls. -/
def OpcuaCall.Ans : OpcuaCall → Type
  | .listOPCUANodes _ => Except Err (List OPCUAPoint)
  | .now => Time
  | .read _ => Except Err (List DataValue)
  | .observeBadQuality .. => Unit

/-- The driver signature of the OPC UA source. -/
def opcuaSig : Sig := ⟨OpcuaCall, OpcuaCall.Ans⟩

namespace Opcua

/-- One driver call. -/
def perform (c : OpcuaCall) : Prog (readSig opcuaSig) c.Ans := driver (S := opcuaSig) c

/-- `ua.StatusOK`, `ua.StatusUncertain` and `ua.StatusBad`. -/
def statusOK : UInt32 := 0x00000000
def statusUncertain : UInt32 := 0x40000000
def statusBad : UInt32 := 0x80000000

/-- The columns of the batch (lines 101–109). -/
def columns : List Column :=
  [⟨"tag_name", "string", false⟩, ⟨"node_id", "string", false⟩, ⟨"ts", "datetime", false⟩,
    ⟨"value_num", "float64", true⟩, ⟨"value_bool", "bool", true⟩, ⟨"value_text", "string", true⟩,
    ⟨"quality", "string", false⟩]

/-- The cells of a row that depend on what was read. -/
structure Cells where
  num : Value := .null
  bool : Value := .null
  text : Value := .null
  quality : String
  deriving DecidableEq, Repr

/-- The row of a node. -/
def nodeRow (n : OPCUAPoint) (ts : Time) (c : Cells) : Row :=
  [("tag_name", .ofString n.tagName), ("node_id", .ofString n.nodeID), ("ts", .time ts),
    ("value_num", c.num), ("value_bool", c.bool), ("value_text", c.text),
    ("quality", .ofString c.quality)]

/-- Model of `badRow` (lines 217–227). -/
def badRow (n : OPCUAPoint) (ts : Time) (msg : String) : Row :=
  nodeRow n ts { text := .ofString msg, quality := "bad" }

/-- Model of `qualityFromStatus` (lines 229–240). -/
def qualityFromStatus (s : UInt32) : String :=
  if s = statusOK then "good"
  else if s = statusBad then "bad"
  else if s = statusUncertain then "uncertain"
  else "good"

/-- Model of `pickTimestamp` (lines 242–253). -/
def pickTimestamp (dv : DataValue) (fallback : Time) : Time :=
  (dv.sourceTimestamp.orElse fun _ => dv.serverTimestamp).getD fallback

section

variable [GoLib] [GoFloat]

/-- Model of `assignValue` (lines 257–300). -/
def assignValue (c : Cells) (v : OpcuaValue) (scale offset : UInt64) : Cells :=
  match v with
  | .null => { c with text := .ofString "null value", quality := "bad" }
  | .bool b => { c with bool := .bool b }
  | .string s => { c with text := .text s }
  | .float32 bits =>
    { c with num := .float64 (GoFloat.mulAdd (GoFloat.ofFloat32 bits) scale offset) }
  | .float64 bits => { c with num := .float64 (GoFloat.mulAdd bits scale offset) }
  | .int i => { c with num := .float64 (GoFloat.mulAdd (GoFloat.ofInt i) scale offset) }
  | .time t => { c with text := .ofString (GoLib.formatTime t) }
  | .other text => { c with text := .text text }

variable [GoOpcua]

/-- The cells of a node that has been answered (lines 174–191). -/
def dataCells (n : OPCUAPoint) (dv : DataValue) : Cells :=
  let c : Cells := { quality := qualityFromStatus dv.status }
  if dv.status ≠ statusOK then { c with text := .ofString (GoOpcua.statusText dv.status) }
  else
    match dv.value with
    | some v => assignValue c v n.scale n.offset
    | none => { c with quality := "bad", text := .ofString "null value" }

/-- The loop over the nodes (lines 158–194), with the rows so far. -/
def walk (pollTS : Time) (resp : Option (List DataValue)) :
    List OPCUAPoint → ℕ → List Row → Int → List Row × Int
  | [], _, rows, rowsRead => (rows, rowsRead)
  | n :: nodes, respIdx, rows, rowsRead =>
    if GoOpcua.parsesNodeID n.nodeID = false then
      walk pollTS resp nodes respIdx (rows ++ [badRow n pollTS "invalid node id"]) (rowsRead + 1)
    else
      match resp.bind (·[respIdx]?) with
      | none =>
        walk pollTS resp nodes (respIdx + 1) (rows ++ [badRow n pollTS "no response for node"])
          (rowsRead + 1)
      | some dv =>
        walk pollTS resp nodes (respIdx + 1)
          (rows ++ [nodeRow n (pickTimestamp dv pollTS) (dataCells n dv)]) (rowsRead + 1)

end

/-- The count of bad rows (lines 196–201). -/
def countBad (rows : List Row) : ℕ :=
  rows.countP fun row => row.get "quality" == .ofString "bad"

/-- Model of the helper `emit` (lines 209–215). -/
def emitBatch (rows : List Row) (rowsRead : Int) :
    Prog (readSig opcuaSig) (ReadResult × Option Err) := do
  let err ← emit ⟨columns, rows⟩
  return ({ rowsRead }, err)

section

variable [GoLib] [GoFloat] [GoOpcua]

/-- The rows of all nodes and the end of `Read` (lines 156–204). -/
def report (load : LoadConfig) (nodes : List OPCUAPoint) (pollTS : Time)
    (resp : Option (List DataValue)) : Prog (readSig opcuaSig) (ReadResult × Option Err) := do
  let (rows, rowsRead) := walk pollTS resp nodes 0 [] 0
  let () ← perform (.observeBadQuality load.name (countBad rows))
  emitBatch rows rowsRead

/-- One polling cycle of a load that has nodes (lines 111–204). -/
def poll (load : LoadConfig) (nodes : List OPCUAPoint) :
    Prog (readSig opcuaSig) (ReadResult × Option Err) := do
  let nodesToRead := (nodes.map (·.nodeID)).filter GoOpcua.parsesNodeID
  let pollTS : Time ← perform .now
  if nodesToRead = [] then report load nodes pollTS none
  else
    match ← perform (.read nodesToRead) with
    | (.error e : Except Err (List DataValue)) =>
      let rows := nodes.map fun n => badRow n pollTS e
      let () ← perform (.observeBadQuality load.name rows.length)
      emitBatch rows rows.length
    | .ok results => report load nodes pollTS (some results)

/-- Model of `Read` (lines 82–205); `catalogue` is whether the source was given a
    telemetry catalogue. -/
def read (catalogue : Bool) : Reader opcuaSig := fun load => do
  if catalogue = false then return ({}, some "opcua telemetry catalog not configured")
  else
    match ← perform (.listOPCUANodes load.loadID) with
    | (.error e : Except Err (List OPCUAPoint)) => return ({}, some ("load nodes: " ++ e))
    | .ok [] => return ({}, none)
    | .ok nodes => poll load nodes

end

end Opcua

end DataLoader
