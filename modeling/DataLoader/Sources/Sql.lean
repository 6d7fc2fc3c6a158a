import DataLoader.Pipeline.Runner

/-!
# Reading from SQL sources

What `internal/sources/sqlserver/source.go` and
`internal/sources/postgres/source.go` have in common: the queries they send
through `database/sql` and the loop that turns a result set into batches. The
two modules repeat that loop; they differ in the texts of their errors and in
how they normalise values, which are parameters here.
-/

namespace DataLoader

open Effects

/-- An argument of a query: a string, or a time that was parsed on the client. -/
inductive SqlArg
  | text (s : String)
  | time (t : Time)
  deriving DecidableEq, Repr

/-- The SELECT of `buildQuery` over a quoted object: all rows, or the rows with
    `col > lower AND col <= upper` in the order of `col`. -/
inductive Select
  | all (obj : String)
  | range (obj col : String) (lower upper : SqlArg)
  deriving DecidableEq, Repr

/-- The queries that the SQL sources send. -/
inductive SqlCall
  /-- `SELECT MAX(col) FROM obj`, scanned into a `sql.NullTime`. -/
  | maxTime (obj col : String)
  /-- The same cast to text, scanned into a `sql.NullString`. -/
  | maxText (obj col : String)
  | query (q : Select)

/-- `sql.ColumnType`: name, database type and nullability. -/
structure ColumnType where
  name : String
  databaseTypeName : String
  nullable : Bool
  deriving DecidableEq, Repr

/-- A result set: `rows.ColumnTypes()`, the outcome of each `rows.Next()` and
    `rows.Scan`, and `rows.Err()` after the last. -/
structure Cursor where
  columnTypes : Except Err (List ColumnType)
  rows : List (Except Err (List Value))
  err : Option Err

/-- The results of these queries. -/
def SqlCall.Ans : SqlCall → Type
  | .maxTime .. => Except Err (Option Time)
  | .maxText .. => Except Err (Option String)
  | .query _ => Except Err Cursor

/-- The driver signature of the SQL sources. -/
def sqlSig : Sig := ⟨SqlCall, SqlCall.Ans⟩

namespace Sql

/-- `QueryRowContext(..).Scan(&t)`. -/
def maxTime (obj col : String) : Prog (readSig sqlSig) (Except Err (Option Time)) :=
  driver (S := sqlSig) (.maxTime obj col)

/-- `QueryRowContext(..).Scan(&raw)`. -/
def maxText (obj col : String) : Prog (readSig sqlSig) (Except Err (Option String)) :=
  driver (S := sqlSig) (.maxText obj col)

/-- `QueryContext`. -/
def query (q : Select) : Prog (readSig sqlSig) (Except Err Cursor) :=
  driver (S := sqlSig) (.query q)

/-- `strings.TrimSpace` on the ASCII space characters. -/
def trimSpace (s : String) : String :=
  String.ofList (Sqlident.trim [' ', '\t', '\n', '\r', '\x0b', '\x0c'] s.toList)

/-- The switch of `currentMaxWatermark`, which both modules have: the branches
    differ in how MAX is scanned, and the last takes the zero string of a NULL. -/
def scanMax [GoLib] (obj col wmType : String) : Prog (readSig sqlSig) (Except Err Watermark) := do
  if wmType = watermarkDatetime then
    match ← maxTime obj col with
    | .error e => return .error e
    | .ok none => return .ok ⟨wmType, ""⟩
    | .ok (some t) => return .ok ⟨wmType, GoLib.formatTime t⟩
  else if wmType = watermarkNumeric then
    match ← maxText obj col with
    | .error e => return .error e
    | .ok none => return .ok ⟨wmType, ""⟩
    | .ok (some raw) => return .ok ⟨wmType, trimSpace raw⟩
  else
    match ← maxText obj col with
    | .error e => return .error e
    | .ok raw => return .ok ⟨wmType, raw.getD ""⟩

/-- How a module reads a result set: the wrapping of its errors and the
    normalisation of a scanned value for a column. -/
structure Flavour where
  queryErr : Err → Err
  columnTypesErr : Err → Err
  scanErr : Err → Err
  iterErr : Err → Err
  column : ColumnType → Column
  normalize : Value → String → Value

/-- `row[c.Name] = normalizeValue(holders[i], c.DataType)` for every column. -/
def Flavour.row (f : Flavour) (columns : List Column) (holders : List Value) : Row :=
  (columns.zip holders).map fun cv => (cv.1.name, f.normalize cv.2 cv.1.dataType)

/-- `batchSize` as the readers use it: 1000 when it is not positive. -/
def effectiveBatchSize (batchSize : Int) : ℕ := if batchSize ≤ 0 then 1000 else batchSize.toNat

/-- The loop `for rows.Next()`: `pending` is `batch.Rows`, `n` is `rowsRead`.
    Returns what is pending after the last row, or the error of the exit. -/
def readLoop (f : Flavour) (columns : List Column) (size : ℕ) :
    List (Except Err (List Value)) → List Row → Int →
      Prog (readSig sqlSig) (Except Err (List Row × Int))
  | [], pending, n => return .ok (pending, n)
  | .error e :: _, _, _ => return .error (f.scanErr e)
  | .ok holders :: rest, pending, n => do
    let rows := pending ++ [f.row columns holders]
    if size ≤ rows.length then
      match ← emit ⟨columns, rows⟩ with
      | some e => return .error e
      | none => readLoop f columns size rest [] (n + 1)
    else readLoop f columns size rest rows (n + 1)

/-- The part of `Read` after `buildQuery`: run the query and hand its rows to
    the handler in batches. `RowsRead` and `NewWatermark` are only set at the
    end, so an exit with an error returns the zero result. -/
def readRows (f : Flavour) (batchSize : Int) (q : Select) (newWM : Watermark) :
    Prog (readSig sqlSig) (ReadResult × Option Err) := do
  match ← query q with
  | .error e => return ({}, some (f.queryErr e))
  | .ok cur =>
    match cur.columnTypes with
    | .error e => return ({}, some (f.columnTypesErr e))
    | .ok types =>
      let columns := types.map f.column
      match ← readLoop f columns (effectiveBatchSize batchSize) cur.rows [] 0 with
      | .error e => return ({}, some e)
      | .ok (pending, n) =>
        match cur.err with
        | some e => return ({}, some (f.iterErr e))
        | none =>
          if pending.isEmpty then return ({ rowsRead := n, newWatermark := newWM }, none)
          else
            match ← emit ⟨columns, pending⟩ with
            | some e => return ({}, some e)
            | none => return ({ rowsRead := n, newWatermark := newWM }, none)

/-- The condition of the first-run branch of `Read`. -/
def isFirstRun (load : LoadConfig) : Bool :=
  load.mode = loadModeDelta && load.watermarkColumn != "" &&
    load.watermarkType != watermarkNone && load.lastWatermark.value = ""

/-- `strings.ToUpper` on ASCII, as the type tables use it. -/
def toUpper (s : String) : String := String.ofList (s.toList.map Char.toUpper)

/-- The part of `normalizeValue` that both modules share: decimals and strings
    arrive as bytes and leave as strings. -/
def normalizeText [GoLib] (v : Value) (canonical : String) : Value :=
  if canonical = "decimal" then
    match v with
    | .bytes b => .text b
    | .float64 x => .text (GoLib.formatFloat x)
    | .int64 i => .ofString (toString i)
    | v => v
  else if canonical = "string" then
    match v with
    | .bytes b => .text b
    | v => v
  else v

end Sql

end DataLoader
