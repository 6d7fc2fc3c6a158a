import Mathlib.Data.List.Basic

/-!
# Ports shared by sources, sinks and the pipeline

The types of `pkg/contracts`, and the parts of the Go standard library and of
the SQL Server driver that the model takes as given (`GoLib`).

A Go `error` is its message. Times are nanoseconds since the Unix epoch in UTC.
A Go `string` held in a row is its bytes, as it may come from a `[]byte` column;
identifiers, messages and watermark values are valid UTF-8 and are `String`s.
-/

namespace DataLoader

/-- A non-nil Go `error`, by its `Error()` text. `Option Err` is a Go `error`. -/
abbrev Err := String

/-- `time.Time` in UTC. -/
abbrev Time := Int

/-- A resolved `map[string]string` of connection parameters. -/
abbrev Params := List (String × String)

/-- What the code uses of the Go standard library and of `go-mssqldb` and that
    is not modelled further. Only the two facts about ASCII are relied upon, and
    that an empty text is no timestamp. -/
class GoLib where
  /-- The regular expression class `\p{L}`. -/
  isLetter : Char → Bool
  /-- The regular expression class `\p{N}`. -/
  isNumber : Char → Bool
  isLetter_ascii : ∀ c : Char, c.toNat < 128 → isLetter c = c.isAlpha
  isNumber_ascii : ∀ c : Char, c.toNat < 128 → isNumber c = c.isDigit
  /-- `strconv.Quote`, the verb `%q`. -/
  quote : String → String
  /-- `t.UTC().Format(time.RFC3339Nano)`. -/
  formatTime : Time → String
  /-- `time.Parse(time.RFC3339Nano, s)`. -/
  parseTime : String → Except Err Time
  parseTime_empty : ∀ t, parseTime "" ≠ .ok t
  /-- `strconv.FormatFloat(x, 'f', -1, 64)` of the float with these bits. -/
  formatFloat : UInt64 → List UInt8
  /-- `mssql.UniqueIdentifier.Scan` of a string. -/
  scanGUID : List UInt8 → Except Err (List UInt8)

/-- Enough of the library to evaluate the model on ASCII texts: no letters or
    digits beyond ASCII, no timestamps, floats or GUIDs. -/
@[reducible] def GoLib.ascii : GoLib where
  isLetter := Char.isAlpha
  isNumber := Char.isDigit
  isLetter_ascii _ _ := rfl
  isNumber_ascii _ _ := rfl
  quote s := "\"" ++ s ++ "\""
  formatTime t := toString t
  parseTime _ := .error "parsing time: unsupported"
  parseTime_empty := by simp
  formatFloat _ := []
  scanGUID _ := .error "mssql: invalid UniqueIdentifier string"

/-- `contracts.TargetTable`. -/
structure TargetTable where
  schema : String
  name : String
  deriving DecidableEq, Repr

/-- `contracts.Column`. -/
structure Column where
  name : String
  dataType : String
  nullable : Bool
  deriving DecidableEq, Repr

/-- The values that drivers and sources put into a row (Go `any`). -/
inductive Value
  | null
  | bool (b : Bool)
  | int64 (i : Int)
  | float64 (bits : UInt64)
  | text (s : List UInt8)
  | bytes (b : List UInt8)
  | time (t : Time)
  | guid (b : List UInt8)
  deriving DecidableEq, Repr

/-- A Go string constant as a row value. -/
def Value.ofString (s : String) : Value := .text s.toUTF8.data.toList

/-- `contracts.Row`, a `map[string]any`. -/
abbrev Row := List (String × Value)

/-- `row[name]`; a missing key reads as `nil`. -/
def Row.get (row : Row) (name : String) : Value := (row.lookup name).getD .null

/-- `contracts.Batch`. -/
structure Batch where
  columns : List Column
  rows : List Row
  deriving DecidableEq, Repr

/-- The constants of `contracts.WatermarkType`. The type is a Go string, and the
    metadata may hold any other. -/
def watermarkNone : String := "none"
def watermarkDatetime : String := "datetime"
def watermarkNumeric : String := "numeric"

/-- The constants of `contracts.LoadMode`, likewise a Go string. -/
def loadModeDelta : String := "delta"
def loadModeAppend : String := "append"
def loadModeReplace : String := "replace"

/-- `contracts.Watermark`. -/
structure Watermark where
  type : String
  value : String
  deriving DecidableEq, Repr

/-- `contracts.ReadResult`, less the two timestamps, which nothing reads. -/
structure ReadResult where
  rowsRead : Int := 0
  newWatermark : Watermark := ⟨"", ""⟩
  watermarkInit : Bool := false
  deriving DecidableEq, Repr

/-- `contracts.SourceConfig`, less the telemetry catalogue, which a source
    reaches through a call of its own. -/
structure SourceConfig where
  sourceID : Int
  sourceType : String
  name : String
  params : Params
  deriving DecidableEq, Repr

/-- `contracts.LoadConfig`. -/
structure LoadConfig where
  loadID : Int
  name : String
  objectName : String
  mode : String
  watermarkColumn : String
  watermarkType : String
  lastWatermark : Watermark
  batchSize : Int
  deriving DecidableEq, Repr

end DataLoader
