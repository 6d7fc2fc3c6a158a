import DataLoader.Pipeline.System
import DataLoader.Sqlident

/-!
# The SQL Server sink

The interfaces `contracts.Sink` and `contracts.AtomicReplacer` as records of
programs, and the models of `internal/sink/mssql.go` and
`internal/sink/replace.go` that implement them. `Open`, `Ping` and `Close` play
no part in a run.
-/

namespace DataLoader

open Effects

/-- `contracts.AtomicReplacer`. -/
structure AtomicReplacer (S : Sig) where
  beginReplace : TargetTable → List Column → Prog (sysSig S) (Except Err TargetTable)
  commitReplace : TargetTable → TargetTable → Prog (sysSig S) (Option Err)
  abortReplace : TargetTable → Prog (sysSig S) (Option Err)

/-- `contracts.Sink`. `atomic` is the result of the type assertion
    `sink.(contracts.AtomicReplacer)`. -/
structure Sink (S : Sig) where
  tableExists : TargetTable → Prog (sysSig S) (Except Err Bool)
  ensureTable : TargetTable → List Column → Prog (sysSig S) (Option Err)
  truncate : TargetTable → Prog (sysSig S) (Option Err)
  writeBatch : TargetTable → Batch → Time → Prog (sysSig S) (Except Err Int)
  atomic : Option (AtomicReplacer S)

namespace Mssql

variable {S : Sig} [GoLib]

/-- A statement as a program. -/
def statement (c : DbCall) : Prog (sysSig S) c.Ans := Prog.perform (S := sysSig S) (.db c)

/-- `LoadTimestampColumn`. -/
def loadTimestampColumn : String := "yb_load_timestamp"

/-- Model of `validateTarget` (mssql.go, lines 108–116). -/
def validateTarget (t : TargetTable) : Option Err :=
  match Sqlident.validate t.schema with
  | some e => some ("target schema: " ++ e)
  | none =>
    match Sqlident.validate t.name with
    | some e => some ("target table: " ++ e)
    | none => none

/-- Model of `tableExists` (mssql.go, lines 214–224). -/
def tableExists' (t : TargetTable) : Prog (sysSig S) (Except Err Bool) := statement (.tableExists t)

/-- Model of `TableExists` (mssql.go, lines 57–62). -/
def tableExists (t : TargetTable) : Prog (sysSig S) (Except Err Bool) :=
  match validateTarget t with
  | some e => return .error e
  | none => tableExists' t

/-- Model of `mapToSQLType` (mssql.go, lines 232–257). -/
def mapToSQLType (canonical : String) : String :=
  let c := String.ofList (canonical.toList.map Char.toLower)
  if c = "string" then "nvarchar(max)"
  else if c = "int32" then "int"
  else if c = "int64" then "bigint"
  else if c = "float32" then "real"
  else if c = "float64" then "float"
  else if c = "bool" then "bit"
  else if c = "datetime" then "datetime2"
  else if c = "bytes" then "varbinary(max)"
  else if c = "decimal" then "decimal(38,10)"
  else if c = "guid" then "uniqueidentifier"
  else "nvarchar(max)"

/-- Model of `nullability` (mssql.go, lines 259–264). -/
def nullability (nullable : Bool) : String := if nullable then "NULL" else "NOT NULL"

/-- The column definitions of `EnsureTable` (mssql.go, lines 79–91), or the
    error of the first illegal column name. -/
def columnDefs : List Column → Except Err (List ColumnDef)
  | [] => .ok [⟨loadTimestampColumn, "datetime2", "NOT NULL"⟩]
  | c :: cs =>
    match Sqlident.validate c.name with
    | some e => .error ("column name: " ++ e)
    | none => (columnDefs cs).map (⟨c.name, mapToSQLType c.dataType, nullability c.nullable⟩ :: ·)

/-- Model of `EnsureTable` (mssql.go, lines 66–98). -/
def ensureTable (t : TargetTable) (columns : List Column) : Prog (sysSig S) (Option Err) :=
  match validateTarget t with
  | some e => return some e
  | none => do
    match ← tableExists' t with
    | .error e => return some e
    | .ok true => return none
    | .ok false =>
      match columnDefs columns with
      | .error e => return some e
      | .ok cols => statement (.createTable t cols)

/-- Model of `Truncate` (mssql.go, lines 100–108). -/
def truncate (t : TargetTable) : Prog (sysSig S) (Option Err) :=
  match validateTarget t with
  | some e => return some e
  | none => statement (.truncateTable t)

/-- Model of `toGUID` (mssql.go, lines 181–210). The messages leave out the
    value (`%q`) and the type (`%T`). -/
def toGUID : Value → Except Err Value
  | .null => .ok .null
  | .guid g => .ok (.guid g)
  | .text s => (GoLib.scanGUID s).map .guid |>.mapError (fun e => "parse guid: " ++ e)
  | .bytes b =>
    if b.length = 16 then .ok (.guid b)
    else (GoLib.scanGUID b).map .guid |>.mapError (fun e => "parse guid: " ++ e)
  | _ => .error "unsupported type for guid column"

/-- Model of `prepareValue` (mssql.go, lines 268–275). -/
def prepareValue (c : Column) (v : Value) : Except Err Value :=
  if c.dataType = "guid" then toGUID v else .ok v

/-- The values of one row in column order (mssql.go, lines 158–166). -/
def prepareCells (row : Row) : List Column → Except Err (List (String × Value))
  | [] => .ok []
  | c :: cs =>
    match prepareValue c (row.get c.name) with
    | .error e => .error ("column " ++ GoLib.quote c.name ++ ": " ++ e)
    | .ok v => (prepareCells row cs).map ((c.name, v) :: ·)

/-- The rows of a batch as the bulk copy receives them. -/
def prepareRows (columns : List Column) (loadTS : Time) : List Row → Except Err (List SinkRow)
  | [] => .ok []
  | row :: rows =>
    match prepareCells row columns with
    | .error e => .error e
    | .ok cells => (prepareRows columns loadTS rows).map (⟨cells, loadTS⟩ :: ·)

/-- The first illegal column name of a batch (mssql.go, lines 135–140). -/
def validateColumns : List Column → Option Err
  | [] => none
  | c :: cs =>
    match Sqlident.validate c.name with
    | some e => some ("column name: " ++ e)
    | none => validateColumns cs

/-- Model of `WriteBatch` (mssql.go, lines 119–179). Taking a connection from
    the pool is part of the bulk copy here. -/
def writeBatch (t : TargetTable) (batch : Batch) (loadTS : Time) :
    Prog (sysSig S) (Except Err Int) :=
  if batch.rows.isEmpty then return .ok 0
  else
    match validateTarget t with
    | some e => return .error e
    | none =>
      match validateColumns batch.columns with
      | some e => return .error e
      | none =>
        match prepareRows batch.columns loadTS batch.rows with
        | .error e => return .error e
        | .ok rows => do
          match ← (statement (.bulkCopy t rows) : Prog (sysSig S) (Option Err)) with
          | some e => return .error e
          | none => return .ok batch.rows.length

/-! ## Atomic replace (`replace.go`) -/

def stagingSuffix : String := "_stg"
def oldSuffix : String := "_old"

/-- The table next to `t` with a suffixed name. -/
def suffixed (t : TargetTable) (suffix : String) : TargetTable := ⟨t.schema, t.name ++ suffix⟩

/-- The staging table of `t`. -/
def staging (t : TargetTable) : TargetTable := suffixed t stagingSuffix

/-- The table that the live table is renamed to. -/
def old (t : TargetTable) : TargetTable := suffixed t oldSuffix

/-- Model of `stagingTarget` (lines 119–125). -/
def stagingTarget (t : TargetTable) : Except Err TargetTable :=
  match Sqlident.validate (t.name ++ stagingSuffix) with
  | some e => .error ("staging table name: " ++ e)
  | none => .ok (staging t)

/-- Model of `oldTarget` (lines 127–133). -/
def oldTarget (t : TargetTable) : Except Err TargetTable :=
  match Sqlident.validate (t.name ++ oldSuffix) with
  | some e => .error ("old table name: " ++ e)
  | none => .ok (old t)

/-- Model of `dropTableIfExists` (lines 135–140). -/
def dropTableIfExists (t : TargetTable) : Prog (sysSig S) (Option Err) :=
  statement (.dropTableIfExists t)

/-- Model of `BeginReplace` (lines 21–56). -/
def beginReplace (target : TargetTable) (columns : List Column) :
    Prog (sysSig S) (Except Err TargetTable) :=
  match validateTarget target with
  | some e => return .error e
  | none =>
    match stagingTarget target with
    | .error e => return .error e
    | .ok stg => do
      match ← dropTableIfExists stg with
      | some e => return .error ("drop staging: " ++ e)
      | none =>
        match ← tableExists' target with
        | .error e => return .error e
        | .ok true =>
          match ← (statement (.selectInto stg target) : Prog (sysSig S) (Option Err)) with
          | some e => return .error ("clone staging schema: " ++ e)
          | none => return .ok stg
        | .ok false =>
          if columns.isEmpty then
            return .error ("begin replace: columns required when target " ++ target.schema ++ "." ++
              target.name ++ " does not exist")
          else
            match ← ensureTable stg columns with
            | some e => return .error ("create staging: " ++ e)
            | none => return .ok stg

/-- Model of `renameInTx` (lines 154–168). -/
def renameInTx (source : TargetTable) (newName : String) : Prog (sysSig S) (Option Err) :=
  match Sqlident.validate newName with
  | some e => return some ("rename target: " ++ e)
  | none => do
    let obj := source.schema ++ "." ++ source.name
    match ← (statement (.spRename obj newName) : Prog (sysSig S) (Option Err)) with
    | some e => return some ("sp_rename " ++ obj ++ " -> " ++ newName ++ ": " ++ e)
    | none => return none

/-- A transaction as `renameTable` and `CommitReplace` write it: `BeginTx`, the
    body, `Commit` unless the body failed, and the deferred `Rollback`. -/
def inTx (body : Prog (sysSig S) (Option Err)) : Prog (sysSig S) (Option Err) := do
  match ← (statement .beginTx : Prog (sysSig S) (Option Err)) with
  | some e => return some e
  | none =>
    match ← body with
    | some e =>
      let () ← statement .rollbackTx
      return some e
    | none =>
      let err ← (statement .commitTx : Prog (sysSig S) (Option Err))
      let () ← statement .rollbackTx
      return err

/-- Model of `renameTable` (lines 142–152). -/
def renameTable (source : TargetTable) (newName : String) : Prog (sysSig S) (Option Err) :=
  inTx (renameInTx source newName)

/-- The three steps of the swap inside the transaction (lines 96–107). -/
def swapInTx (target stg old : TargetTable) : Prog (sysSig S) (Option Err) := do
  match ← renameInTx target old.name with
  | some e => return some e
  | none =>
    match ← renameInTx stg target.name with
    | some e => return some e
    | none =>
      match ← (statement (.dropTable old) : Prog (sysSig S) (Option Err)) with
      | some e => return some ("drop old table: " ++ e)
      | none => return none

/-- Model of `CommitReplace` (lines 59–109). -/
def commitReplace (target stg : TargetTable) : Prog (sysSig S) (Option Err) :=
  match validateTarget target with
  | some e => return some e
  | none =>
    match validateTarget stg with
    | some e => return some e
    | none => do
      match ← tableExists' target with
      | .error e => return some e
      | .ok liveExists =>
        match ← tableExists' stg with
        | .error e => return some e
        | .ok false =>
          return some ("commit replace: staging " ++ stg.schema ++ "." ++ stg.name ++
            " does not exist")
        | .ok true =>
          if !liveExists then renameTable stg target.name
          else
            match oldTarget target with
            | .error e => return some e
            | .ok old =>
              match ← dropTableIfExists old with
              | some e => return some ("drop previous old table: " ++ e)
              | none => inTx (swapInTx target stg old)

/-- Model of `AbortReplace` (lines 112–117). -/
def abortReplace (stg : TargetTable) : Prog (sysSig S) (Option Err) :=
  match validateTarget stg with
  | some e => return some e
  | none => dropTableIfExists stg

/-- `MSSQLSink`, which implements both interfaces. -/
def sink : Sink S where
  tableExists := tableExists
  ensureTable := ensureTable
  truncate := truncate
  writeBatch := writeBatch
  atomic := some ⟨beginReplace, commitReplace, abortReplace⟩

end Mssql

end DataLoader
