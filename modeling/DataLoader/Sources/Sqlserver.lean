import DataLoader.Sources.Sql

/-!
# The SQL Server source

Model of `internal/sources/sqlserver/source.go`, from `Read` down to the value
normalisation. Opening the connection is part of the session.
-/

namespace DataLoader.Sqlserver

open Effects Sql

variable [GoLib]

/-- `Kind`. -/
def kind : String := "sqlserver"

/-- `quoteObject` (line 280). -/
def quoteObject (name : String) : Except Err String := Sqlident.quoteMSSQLQualified name

/-- Model of `canonicalType` (lines 285–309). -/
def canonicalType (dbType : String) : String :=
  let t := toUpper dbType
  if t = "BIT" then "bool"
  else if t ∈ ["TINYINT", "SMALLINT", "INT"] then "int32"
  else if t = "BIGINT" then "int64"
  else if t = "REAL" then "float32"
  else if t = "FLOAT" then "float64"
  else if t ∈ ["DECIMAL", "NUMERIC", "MONEY", "SMALLMONEY"] then "decimal"
  else if t ∈ ["DATE", "DATETIME", "DATETIME2", "SMALLDATETIME", "DATETIMEOFFSET", "TIME"] then
    "datetime"
  else if t ∈ ["BINARY", "VARBINARY", "IMAGE"] then "bytes"
  else if t = "UNIQUEIDENTIFIER" then "guid"
  else "string"

/-- The two upper-case hexadecimal digits of a byte (`%X`). -/
def hexByte (b : UInt8) : List UInt8 :=
  let digit (n : UInt8) : UInt8 := if n < 10 then 48 + n else 55 + n
  [digit (b / 16), digit (b % 16)]

/-- Model of `formatMSSQLGUID` (lines 373–389): the first three groups are
    stored little-endian. -/
def formatMSSQLGUID : List UInt8 → Except Err (List UInt8)
  | [b0, b1, b2, b3, b4, b5, b6, b7, b8, b9, b10, b11, b12, b13, b14, b15] =>
    .ok ([b3, b2, b1, b0].flatMap hexByte ++ [45] ++ [b5, b4].flatMap hexByte ++ [45] ++
      [b7, b6].flatMap hexByte ++ [45] ++ [b8, b9].flatMap hexByte ++ [45] ++
      [b10, b11, b12, b13, b14, b15].flatMap hexByte)
  | b => .error ("uniqueidentifier: expected 16 bytes, got " ++ toString b.length)

/-- Model of `normalizeValue` (lines 314–363). -/
def normalizeValue (v : Value) (canonical : String) : Value :=
  if canonical = "guid" then
    match v with
    | .bytes b =>
      match formatMSSQLGUID b with
      | .error _ => .text b
      | .ok s => .text s
    | v => v
  else normalizeText v canonical

/-- The error texts and conversions of this module's `Read`. -/
def flavour : Flavour where
  queryErr e := "query source: " ++ e
  columnTypesErr e := e
  scanErr e := e
  iterErr e := e
  column ct := ⟨ct.name, canonicalType ct.databaseTypeName, ct.nullable⟩
  normalize := normalizeValue

/-- Model of `currentMaxWatermark` (lines 206–241). -/
def currentMaxWatermark (obj col wmType : String) :
    Prog (readSig sqlSig) (Except Err Watermark) := do
  match Sqlident.validate col with
  | some e => return .error ("watermark column: " ++ e)
  | none => scanMax obj (String.ofList (Sqlident.quoteMSSQL col.toList)) wmType

/-- Model of `buildQuery` (lines 168–201): the query and the watermark to
    persist. -/
def buildQuery (load : LoadConfig) : Prog (readSig sqlSig) (Except Err (Select × Watermark)) := do
  match quoteObject load.objectName with
  | .error e => return .error e
  | .ok obj =>
    if load.mode = loadModeAppend ∨ load.mode = loadModeReplace then
      return .ok (.all obj, ⟨watermarkNone, ""⟩)
    else if load.watermarkColumn = "" ∨ load.watermarkType = watermarkNone then
      return .error "delta load requires watermark column and type"
    else
      match Sqlident.validate load.watermarkColumn with
      | some e => return .error ("watermark column: " ++ e)
      | none =>
        let wmCol := String.ofList (Sqlident.quoteMSSQL load.watermarkColumn.toList)
        match ← currentMaxWatermark obj load.watermarkColumn load.watermarkType with
        | .error e => return .error e
        | .ok upper =>
          return .ok (.range obj wmCol (.text load.lastWatermark.value) (.text upper.value), upper)

/-- Model of `Read` (lines 69–161). -/
def read : Reader sqlSig := fun load => do
  if isFirstRun load then
    match quoteObject load.objectName with
    | .error e => return ({}, some e)
    | .ok obj =>
      match ← currentMaxWatermark obj load.watermarkColumn load.watermarkType with
      | .error e => return ({}, some ("initialize watermark: " ++ e))
      | .ok upper => return ({ newWatermark := upper, watermarkInit := true }, none)
  else
    match ← buildQuery load with
    | .error e => return ({}, some e)
    | .ok (q, newWM) => readRows flavour load.batchSize q newWM

end DataLoader.Sqlserver
