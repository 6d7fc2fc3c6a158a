import DataLoader.Codec.Bytes
import DataLoader.GoText
import DataLoader.Pipeline.Runner

/-!
# The Modbus source

Model of `internal/sources/modbus/source.go`. The calls on the telemetry
catalogue, on the Modbus client and on the metrics are the driver calls of the
module (`ModbusCall`). A reading is kept apart as the raw number on the wire
(`RawNumber`) and as the scaled `float64` that goes into the row.
-/

namespace DataLoader

open Effects Codec

/-- `contracts.ModbusPoint`; scale and offset are `float64` bit patterns. -/
structure ModbusPoint where
  correlationID : String
  tagName : String
  unitID : UInt8
  registerType : String
  address : UInt16
  quantity : UInt16
  dataType : String
  byteOrder : String
  wordOrder : String
  scale : UInt64
  offset : UInt64
  deriving DecidableEq, Repr

/-- `mb.Endianness`. -/
inductive Endianness
  | big
  | little
  deriving DecidableEq, Repr

/-- `mb.WordOrder`. -/
inductive WordOrder
  | highFirst
  | lowFirst
  deriving DecidableEq, Repr

/-- `mb.RegType`. -/
inductive RegType
  | holding
  | input
  deriving DecidableEq, Repr

/-- The calls of the module. -/
inductive ModbusCall
  | listModbusTags (loadID : Int)
  | now
  | setUnitId (id : UInt8)
  | setEncoding (e : Endianness) (w : WordOrder)
  /-- `ReadCoils(addr, 1)`, which returns one value. -/
  | readCoil (addr : UInt16)
  /-- `ReadDiscreteInputs(addr, 1)`. -/
  | readDiscreteInput (addr : UInt16)
  | readRegisters (addr quantity : UInt16) (type : RegType)
  | observeBadQuality (load : String) (bad : ℕ)

/-- The results of these calls. -/
def ModbusCall.Ans : ModbusCall → Type
  | .listModbusTags _ => Except Err (List ModbusPoint)
  | .now => Time
  | .setUnitId _ | .setEncoding .. => Option Err
  | .readCoil _ | .readDiscreteInput _ => Except Err Bool
  | .readRegisters .. => Except Err (List UInt16)
  | .observeBadQuality .. => Unit

/-- The driver signature of the Modbus source. -/
def modbusSig : Sig := ⟨ModbusCall, ModbusCall.Ans⟩

/-- A number before it is widened to `float64`: an integer, or the bits of a
    float. -/
inductive RawNumber
  | int (i : Int)
  | float32 (bits : UInt32)
  | float64 (bits : UInt64)
  deriving DecidableEq, Repr

/-- What a reading puts into its row. -/
inductive TagReading
  | bool (b : Bool)
  | num (bits : UInt64)
  deriving DecidableEq, Repr

namespace Modbus

/-- One driver call. -/
def perform (c : ModbusCall) : Prog (readSig modbusSig) c.Ans := driver (S := modbusSig) c

section

variable [GoText]

/-- Model of `endianness` (lines 372–377). -/
def endianness (s : String) : Endianness :=
  if GoText.equalFold s "little" then .little else .big

/-- Model of `wordOrder` (lines 379–384). -/
def wordOrder (s : String) : WordOrder :=
  if GoText.equalFold s "low_first" then .lowFirst else .highFirst

/-- Model of `quantityFor` (lines 344–358). -/
def quantityFor (dataType : String) (quantity : UInt16) : UInt16 :=
  if quantity > 0 then quantity
  else
    let t := GoText.toLower dataType
    if t = "int16" ∨ t = "uint16" then 1
    else if t = "int32" ∨ t = "uint32" ∨ t = "float32" then 2
    else if t = "int64" ∨ t = "uint64" ∨ t = "float64" then 4
    else 1

end

/-! ## Decoding -/

/-- `binary.BigEndian.PutUint16` of every register (lines 228–231). -/
def putRegisters (regs : List UInt16) : List UInt8 :=
  regs.flatMap fun r : UInt16 => [(r >>> 8).toUInt8, r.toUInt8]

/-- Model of `swapWords` (lines 361–370). -/
def swapWords (buf : List UInt8) : List UInt8 :=
  let words := buf.length / 2
  ((List.range words).flatMap fun i =>
    let srcHi := (words - 1 - i) * 2
    [buf.getD srcHi 0, buf.getD (srcHi + 1) 0]) ++ List.replicate (buf.length % 2) 0

/-- `binary.LittleEndian.UintN` or `binary.BigEndian.UintN` of the first `n`
    bytes. -/
def uintN (le : Bool) (n : ℕ) (buf : List UInt8) : ℕ :=
  if le then ofBytes (buf.take n).reverse else ofBytes (buf.take n)

/-- One case of `decodeNumeric` for a type of `n` bytes: the length check and the
    conversion of the unsigned number. -/
def decodeCase (name : String) (n : ℕ) (le : Bool) (buf : List UInt8) (conv : ℕ → RawNumber) :
    Except Err RawNumber :=
  if buf.length < n then .error (name ++ " needs " ++ toString n ++ " bytes")
  else .ok (conv (uintN le n buf))

/-- The conversion `intN(v)` of an unsigned number to a signed one of `n` bits. -/
def signed (n : ℕ) (v : ℕ) : RawNumber := .int (BitVec.ofNat n v).toInt

section

variable [GoText] [GoLib]

/-- Model of `decodeNumeric` (lines 249–342) before the widening to `float64`. -/
def decodeRaw (buf : List UInt8) (dataType byteOrder : String) : Except Err RawNumber :=
  let le := GoText.equalFold byteOrder "little"
  let t := GoText.toLower dataType
  if t = "int16" then decodeCase "int16" 2 le buf (signed 16)
  else if t = "uint16" then decodeCase "uint16" 2 le buf fun v => .int v
  else if t = "int32" then decodeCase "int32" 4 le buf (signed 32)
  else if t = "uint32" then decodeCase "uint32" 4 le buf fun v => .int v
  else if t = "int64" then decodeCase "int64" 8 le buf (signed 64)
  else if t = "uint64" then decodeCase "uint64" 8 le buf fun v => .int v
  else if t = "float32" then decodeCase "float32" 4 le buf fun v => .float32 (UInt32.ofNat v)
  else if t = "float64" then decodeCase "float64" 8 le buf fun v => .float64 (UInt64.ofNat v)
  else .error ("unsupported data type " ++ GoLib.quote dataType)

/-- The registers as bytes in the word order of the tag, decoded (lines 228–236). -/
def decodeRegisters (tag : ModbusPoint) (regs : List UInt16) : Except Err RawNumber :=
  let buf := putRegisters regs
  let buf :=
    if GoText.equalFold tag.wordOrder "low_first" && decide (2 ≤ regs.length) then swapWords buf
    else buf
  decodeRaw buf tag.dataType tag.byteOrder

variable [GoFloat]

/-- The conversion to `float64` at the end of each case of `decodeNumeric`. -/
def widen : RawNumber → UInt64
  | .int i => GoFloat.ofInt i
  | .float32 bits => GoFloat.ofFloat32 bits
  | .float64 bits => bits

/-! ## Reading -/

/-- Model of `readRegisters` (lines 213–247). -/
def readRegisters (tag : ModbusPoint) : Prog (readSig modbusSig) (Except Err TagReading) := do
  let type : RegType := if GoText.toLower tag.registerType = "input" then .input else .holding
  match ← perform (.readRegisters tag.address (quantityFor tag.dataType tag.quantity) type) with
  | (.error e : Except Err (List UInt16)) => return .error e
  | .ok regs =>
    match decodeRegisters tag regs with
    | .error e => return .error e
    | .ok raw =>
      let scaled := GoFloat.mulAdd (widen raw) tag.scale tag.offset
      if isNaNOrInf scaled then return .error "decoded value is NaN/Inf"
      else return .ok (.num scaled)

/-- Model of `readTagInto` (lines 187–211). -/
def readTagInto (tag : ModbusPoint) : Prog (readSig modbusSig) (Except Err TagReading) := do
  let t := GoText.toLower tag.registerType
  if t = "coil" then
    match ← perform (.readCoil tag.address) with
    | (.error e : Except Err Bool) => return .error e
    | .ok b => return .ok (.bool b)
  else if t = "discrete" then
    match ← perform (.readDiscreteInput tag.address) with
    | (.error e : Except Err Bool) => return .error e
    | .ok b => return .ok (.bool b)
  else if t = "holding" ∨ t = "input" then readRegisters tag
  else return .error ("unknown register type " ++ GoLib.quote tag.registerType)

end

/-- Model of `nullIfEmpty` (lines 386–391). -/
def nullIfEmpty (s : String) : Value := if s = "" then .null else .ofString s

/-- The row of a tag (lines 124–132 and what is set later): a reading, or the text
    of an error with bad quality. -/
def tagRow (tag : ModbusPoint) (pollTS : Time) (reading : Except Err TagReading) : Row :=
  let (num, bool, text, quality) : Value × Value × Value × String :=
    match reading with
    | .ok (.num bits) => (.float64 bits, .null, .null, "good")
    | .ok (.bool b) => (.null, .bool b, .null, "good")
    | .error e => (.null, .null, .ofString e, "bad")
  [("correlation_id", nullIfEmpty tag.correlationID), ("tag_name", .ofString tag.tagName),
    ("ts", .time pollTS), ("value_num", num), ("value_bool", bool), ("value_text", text),
    ("quality", .ofString quality)]

/-- The columns of the batch (lines 106–114). -/
def columns : List Column :=
  [⟨"correlation_id", "string", true⟩, ⟨"tag_name", "string", false⟩, ⟨"ts", "datetime", false⟩,
    ⟨"value_num", "float64", true⟩, ⟨"value_bool", "bool", true⟩, ⟨"value_text", "string", true⟩,
    ⟨"quality", "string", false⟩]

/-- The count of bad rows (lines 168–173). -/
def countBad (rows : List Row) : ℕ :=
  rows.countP fun row => row.get "quality" == .ofString "bad"

section

variable [GoText] [GoLib] [GoFloat]

/-- One tag of the loop (lines 124–165): its row, and whether it counts as read. -/
def readTag (tag : ModbusPoint) (pollTS : Time) : Prog (readSig modbusSig) (Row × Bool) := do
  match ← perform (.setUnitId tag.unitID) with
  | (some e : Option Err) => return (tagRow tag pollTS (.error ("set unit: " ++ e)), false)
  | none =>
    match ← perform (.setEncoding (endianness tag.byteOrder) (wordOrder tag.wordOrder)) with
    | (some e : Option Err) => return (tagRow tag pollTS (.error ("set encoding: " ++ e)), false)
    | none =>
      let reading ← readTagInto tag
      return (tagRow tag pollTS reading, true)

/-- The loop over the tags (lines 123–166), with the rows so far. -/
def readTags (pollTS : Time) :
    List ModbusPoint → List Row → Int → Prog (readSig modbusSig) (List Row × Int)
  | [], rows, rowsRead => return (rows, rowsRead)
  | tag :: tags, rows, rowsRead => do
    let (row, counted) ← readTag tag pollTS
    readTags pollTS tags (rows ++ [row]) (if counted then rowsRead + 1 else rowsRead)

/-- Model of `Read` (lines 87–183); `catalogue` is whether the source was given a
    telemetry catalogue. -/
def read (catalogue : Bool) : Reader modbusSig := fun load => do
  if catalogue = false then return ({}, some "modbus telemetry catalog not configured")
  else
    match ← perform (.listModbusTags load.loadID) with
    | (.error e : Except Err (List ModbusPoint)) => return ({}, some ("load tags: " ++ e))
    | .ok [] => return ({}, none)
    | .ok tags =>
      let pollTS : Time ← perform .now
      let (rows, rowsRead) ← readTags pollTS tags [] 0
      let () ← perform (.observeBadQuality load.name (countBad rows))
      let err ← emit ⟨columns, rows⟩
      return ({ rowsRead }, err)

end

end Modbus

end DataLoader
