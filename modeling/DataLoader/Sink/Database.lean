import DataLoader.Metadata.Store

/-!
# The sink database

The SQL Server database that `internal/sink` writes to, at the level of the
statements it is sent. Only table names and rows are kept; a staged transaction
is a working copy of the tables that a commit makes current.

A statement that quotes a name addresses the table of that name. `sp_rename`
instead receives `schema.table` as plain text (`renameInTx`) and reads it as a
multi-part name: two parts are a schema and a table, three parts name a database
first, which has to be the current one, and an empty schema part is the default
schema. Names are taken up to the server's collation: two `TargetTable`s are equal
when they name the same table.
-/

namespace DataLoader

/-- A row as the sink stores it: the prepared cells in column order and the
    load timestamp. -/
structure SinkRow where
  cells : List (String × Value)
  loadTS : Time
  deriving DecidableEq, Repr

/-- The tables of the sink by schema and name; `none` is a missing table. -/
abbrev Tables := TargetTable → Option (List SinkRow)

/-- The identity of the server that names are resolved against. -/
structure SqlServer where
  database : String
  defaultSchema : String

/-- The sink database, with the working copy of an open transaction. -/
structure Db where
  tables : Tables
  tx : Option Tables

/-- A column definition of `CREATE TABLE`: name, type and nullability. -/
structure ColumnDef where
  name : String
  sqlType : String
  nullability : String
  deriving DecidableEq, Repr

/-- The statements that the sink sends. -/
inductive DbCall
  | tableExists (t : TargetTable)
  | dropTableIfExists (t : TargetTable)
  /-- `SELECT * INTO staging FROM target WHERE 1 = 0`. -/
  | selectInto (staging target : TargetTable)
  | createTable (t : TargetTable) (cols : List ColumnDef)
  | truncateTable (t : TargetTable)
  /-- A bulk copy of `rows` into `t`, up to and including `bulk.Done()`. -/
  | bulkCopy (t : TargetTable) (rows : List SinkRow)
  | beginTx
  /-- `EXEC sp_rename @objname, @newname` in the open transaction. -/
  | spRename (objname newname : String)
  /-- `DROP TABLE` in the open transaction. -/
  | dropTable (t : TargetTable)
  | commitTx
  | rollbackTx

/-- The results of the statements; `Option Err` is a Go `error`. -/
def DbCall.Ans : DbCall → Type
  | .tableExists _ => Except Err Bool
  | .rollbackTx => Unit
  | _ => Option Err

namespace SqlServer

variable (srv : SqlServer)

/-- The table that `sp_rename` reads the text of an object name as. -/
def object (objname : String) : Option TargetTable :=
  match objname.toList.splitOn '.' with
  | [s, n] => some ⟨String.ofList s, String.ofList n⟩
  | [d, s, n] =>
    if String.ofList d ≠ srv.database then none
    else if s = [] then some ⟨srv.defaultSchema, String.ofList n⟩
    else some ⟨String.ofList s, String.ofList n⟩
  | _ => none

/-- `sp_rename` on the tables: the object must exist and the new name be free in
    its schema. -/
def rename (ts : Tables) (objname newname : String) : Except Err Tables :=
  match srv.object objname with
  | none => .error "sp_rename: invalid object name"
  | some t =>
    match ts t, ts ⟨t.schema, newname⟩ with
    | some rows, none =>
      .ok (Function.update (Function.update ts t none) ⟨t.schema, newname⟩ (some rows))
    | none, _ => .error "sp_rename: no item by that name"
    | some _, some _ => .error "sp_rename: the new name is already in use"

end SqlServer

namespace Db

/-- One statement of the working copy of the open transaction. -/
def inTx (o : Outcome) (db : Db) (f : Tables → Except Err Tables) : Option Err × Db :=
  match db.tx with
  | none => (some "no transaction", db)
  | some ts =>
    match o, f ts with
    | .fail msg _, _ => (some msg, db)
    | .ok, .error e => (some e, db)
    | .ok, .ok ts' => (none, { db with tx := some ts' })

/-- One statement outside a transaction: an error of its own, or its effect. -/
def statement (o : Outcome) (db : Db) (f : Tables → Except Err Tables) : Option Err × Db :=
  match f db.tables with
  | .error e => ((o.err).or (some e), db)
  | .ok ts => (o.err, if o.effective then { db with tables := ts } else db)

/-- A table after its first `n` rows have been appended. -/
def append (ts : Tables) (t : TargetTable) (rows : List SinkRow) : Except Err Tables :=
  match ts t with
  | none => .error "invalid object name"
  | some old => .ok (Function.update ts t (some (old ++ rows)))

/-- The tables after `CREATE TABLE`. -/
def create (ts : Tables) (t : TargetTable) : Except Err Tables :=
  match ts t with
  | none => .ok (Function.update ts t (some []))
  | some _ => .error "there is already an object of that name"

/-- The tables after `DROP TABLE`. -/
def drop (ts : Tables) (t : TargetTable) : Except Err Tables :=
  match ts t with
  | none => .error "cannot drop the table, it does not exist"
  | some _ => .ok (Function.update ts t none)

/-- A commit. Assumed of the server and the driver: one that reports an error has not
    committed, however far it came. -/
def commit (o : Outcome) (db : Db) : Option Err × Db :=
  match o, db.tx with
  | .ok, some ts => (none, ⟨ts, none⟩)
  | .ok, none => (some "no transaction", db)
  | .fail msg _, _ => (some msg, { db with tx := none })

/-- One statement on the database. A failed bulk copy may leave a part of its rows. -/
def answer (srv : SqlServer) (o : Outcome) : (c : DbCall) → Db → c.Ans × Db
  | .tableExists t, db =>
    (match o with
      | .ok => .ok (db.tables t).isSome
      | .fail msg _ => .error msg, db)
  | .dropTableIfExists t, db => db.statement o fun ts => .ok (Function.update ts t none)
  | .selectInto stg t, db => db.statement o fun ts =>
    match ts stg, ts t with
    | none, some _ => .ok (Function.update ts stg (some []))
    | _, none => .error "invalid object name"
    | some _, some _ => .error "there is already an object of that name"
  | .createTable t _, db => db.statement o fun ts => create ts t
  | .truncateTable t, db => db.statement o fun ts =>
    match ts t with
    | none => .error "invalid object name"
    | some _ => .ok (Function.update ts t (some []))
  | .bulkCopy t rows, db =>
    match append db.tables t (match o with | .ok => rows | .fail _ done => rows.take done) with
    | .error e => ((o.err).or (some e), db)
    | .ok ts => (o.err, { db with tables := ts })
  | .beginTx, db => (o.err, match o with | .ok => { db with tx := some db.tables } | .fail .. => db)
  | .spRename objname newname, db => db.inTx o fun ts => srv.rename ts objname newname
  | .dropTable t, db => db.inTx o fun ts => drop ts t
  | .commitTx, db => db.commit o
  | .rollbackTx, db => ((), { db with tx := none })

end Db

end DataLoader
