import DataLoader.Sources.Sql

/-!
# The PostgreSQL source

Model of `internal/sources/postgres/source.go`, from `Read` down to the value
normalisation. Unlike the SQL Server module it parses datetime bounds on the
client, so an empty upper bound is an error there.
-/

namespace DataLoader.Postgres

open Effects Sql

variable [GoLib]

/-- `kind`. -/
def kind : String := "postgres"

/-- Model of `mapDriverType` (lines 316–340). -/
def mapDriverType (dbType : String) : String :=
  let t := toUpper dbType
  if t ∈ ["INT8", "BIGINT"] then "int64"
  else if t ∈ ["INT4", "INTEGER", "INT2", "SMALLINT"] then "int32"
  else if t ∈ ["FLOAT4", "REAL"] then "float32"
  else if t ∈ ["FLOAT8", "DOUBLE PRECISION"] then "float64"
  else if t ∈ ["NUMERIC", "DECIMAL", "MONEY"] then "decimal"
  else if t ∈ ["BOOL", "BOOLEAN"] then "bool"
  else if t ∈ ["TIMESTAMP", "TIMESTAMPTZ", "DATE", "TIME", "TIMETZ"] then "datetime"
  else if t = "BYTEA" then "bytes"
  else "string"

/-- The error texts and conversions of this module's `Read`. `normalizeValue`
    (lines 277–313) only adds `t.UTC()`, and times are in UTC here. -/
def flavour : Flavour where
  queryErr e := "execute source query: " ++ e
  columnTypesErr e := "column types: " ++ e
  scanErr e := "scan row: " ++ e
  iterErr e := "iterate rows: " ++ e
  column ct := ⟨ct.name, mapDriverType ct.databaseTypeName, ct.nullable⟩
  normalize := normalizeText

/-- Model of `currentMaxWatermark` (lines 343–383). -/
def currentMaxWatermark (obj col wmType : String) :
    Prog (readSig sqlSig) (Except Err Watermark) := do
  match Sqlident.validate col with
  | some e => return .error ("watermark column: " ++ e)
  | none =>
    match Sqlident.quotePostgresQualified obj with
    | .error e => return .error e
    | .ok quotedObj => scanMax quotedObj (String.ofList (Sqlident.quotePostgres col.toList)) wmType

/-- Model of `parseWatermark` (lines 264–273). -/
def parseWatermark (w : Watermark) : Except Err SqlArg :=
  if w.type = watermarkDatetime then (GoLib.parseTime w.value).map .time else .ok (.text w.value)

/-- Model of `buildQuery` (lines 227–262). -/
def buildQuery (load : LoadConfig) : Prog (readSig sqlSig) (Except Err (Select × Watermark)) := do
  match Sqlident.quotePostgresQualified load.objectName with
  | .error e => return .error e
  | .ok obj =>
    if load.mode = loadModeAppend ∨ load.mode = loadModeReplace then
      return .ok (.all obj, ⟨watermarkNone, ""⟩)
    else if load.watermarkColumn = "" ∨ load.watermarkType = watermarkNone then
      return .error "delta load requires watermark column and type"
    else
      match Sqlident.validate load.watermarkColumn with
      | some e => return .error ("watermark column: " ++ e)
      | none =>
        let wm := String.ofList (Sqlident.quotePostgres load.watermarkColumn.toList)
        match ← currentMaxWatermark load.objectName load.watermarkColumn load.watermarkType with
        | .error e => return .error e
        | .ok upper =>
          match parseWatermark load.lastWatermark with
          | .error e => return .error e
          | .ok last =>
            match parseWatermark upper with
            | .error e => return .error e
            | .ok upperArg => return .ok (.range obj wm last upperArg, upper)

/-- Model of `Read` (lines 70–173). -/
def read : Reader sqlSig := fun load => do
  if isFirstRun load then
    match ← currentMaxWatermark load.objectName load.watermarkColumn load.watermarkType with
    | .error e => return ({}, some ("initialize watermark: " ++ e))
    | .ok upper => return ({ newWatermark := upper, watermarkInit := true }, none)
  else
    match ← buildQuery load with
    | .error e => return ({}, some e)
    | .ok (q, newWM) => readRows flavour load.batchSize q newWM

end DataLoader.Postgres
