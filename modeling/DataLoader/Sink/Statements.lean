import DataLoader.Sink.Calls
import DataLoader.SqlNames

/-!
# The SQL texts of the sink

The text that `internal/sink/mssql.go` and `internal/sink/replace.go` build for each
statement, and the tokens that SQL Server reads in it: the words of the statement
and one delimited identifier for each name.
-/

namespace DataLoader

open Effects SqlLex

/-! ## Texts -/

namespace Mssql

/-- `sqlident.QuoteMSSQL` on a name. -/
def quoted (name : String) : String := String.ofList (Sqlident.quoteMSSQL name.toList)

/-- `%s.%s` of the two quoted names of a table. -/
def qualified (t : TargetTable) : String := quoted t.schema ++ "." ++ quoted t.name

/-- The query of `tableExists` (mssql.go, lines 216–219). -/
def tableExistsText : String :=
  "\n\t\tSELECT COUNT(*) FROM INFORMATION_SCHEMA.TABLES\n" ++
    "\t\tWHERE TABLE_SCHEMA = @p1 AND TABLE_NAME = @p2\n\t"

/-- `%s %s %s` of a column (mssql.go, lines 83–89). -/
def columnText (c : ColumnDef) : String := quoted c.name ++ " " ++ c.sqlType ++ " " ++ c.nullability

end Mssql

open Mssql

/-- The SQL text of a call: the statement, or the name of the table of a bulk copy.
    Transactions are opened and closed by the driver. -/
def DbCall.text : DbCall → Option String
  | .tableExists _ => some tableExistsText
  | .dropTableIfExists t => some ("DROP TABLE IF EXISTS " ++ qualified t)
  | .selectInto staging target =>
    some ("SELECT * INTO " ++ qualified staging ++ " FROM " ++ qualified target ++ " WHERE 1 = 0")
  | .createTable t cols => some ("CREATE TABLE " ++ qualified t ++ " (\n  " ++
      ",\n  ".intercalate (cols.map columnText) ++ "\n);")
  | .truncateTable t => some ("TRUNCATE TABLE " ++ qualified t)
  | .bulkCopy t _ => some (qualified t)
  | .spRename .. => some "EXEC sp_rename @objname, @newname;"
  | .dropTable t => some ("DROP TABLE " ++ qualified t)
  | .beginTx | .commitTx | .rollbackTx => none

/-! ## Tokens -/

namespace Mssql

/-- A name is one delimited identifier. -/
def nameToken (name : String) : Token := Quoting.mssql.token name.toList

def tableExistsTokens : List Token :=
  [.word "SELECT", .word "COUNT", .symbol '(', .symbol '*', .symbol ')', .word "FROM",
    .word "INFORMATION_SCHEMA", .symbol '.', .word "TABLES", .word "WHERE", .word "TABLE_SCHEMA",
    .symbol '=', .word "@p1", .word "AND", .word "TABLE_NAME", .symbol '=', .word "@p2"]

def tableTokens (t : TargetTable) : List Token :=
  [nameToken t.schema, .symbol '.', nameToken t.name]

/-- The words of a column type. -/
def typeTokens (sqlType : String) : List Token :=
  if sqlType = "nvarchar(max)" then [.word "nvarchar", .symbol '(', .word "max", .symbol ')']
  else if sqlType = "varbinary(max)" then [.word "varbinary", .symbol '(', .word "max", .symbol ')']
  else if sqlType = "decimal(38,10)" then
    [.word "decimal", .symbol '(', .word "38", .symbol ',', .word "10", .symbol ')']
  else if sqlType ∈ sqlTypes then [.word sqlType]
  else []

def nullabilityTokens (nullability : String) : List Token :=
  if nullability = "NULL" then [.word "NULL"] else [.word "NOT", .word "NULL"]

def columnTokens (c : ColumnDef) : List Token :=
  nameToken c.name :: typeTokens c.sqlType ++ nullabilityTokens c.nullability

end Mssql

/-- The fixed words of a statement, with a delimited identifier for each name. -/
def DbCall.skeleton : DbCall → List Token
  | .tableExists _ => tableExistsTokens
  | .dropTableIfExists t =>
    [.word "DROP", .word "TABLE", .word "IF", .word "EXISTS"] ++ tableTokens t
  | .selectInto staging target =>
    [.word "SELECT", .symbol '*', .word "INTO"] ++ tableTokens staging ++ [.word "FROM"] ++
      tableTokens target ++ [.word "WHERE", .word "1", .symbol '=', .word "0"]
  | .createTable t cols =>
    [.word "CREATE", .word "TABLE"] ++ tableTokens t ++ [.symbol '('] ++
      [Token.symbol ','].intercalate (cols.map columnTokens) ++ [.symbol ')', .symbol ';']
  | .truncateTable t => [.word "TRUNCATE", .word "TABLE"] ++ tableTokens t
  | .bulkCopy t _ => tableTokens t
  | .spRename .. =>
    [.word "EXEC", .word "sp_rename", .word "@objname", .symbol ',', .word "@newname", .symbol ';']
  | .dropTable t => [.word "DROP", .word "TABLE"] ++ tableTokens t
  | .beginTx | .commitTx | .rollbackTx => []

namespace Mssql

theorem names_qualified (t : TargetTable) : Quoting.mssql.Names (qualified t) (tableTokens t) := by
  have hdot : Reads tsql .idle ".".toList .idle [.symbol '.'] := by decide
  have hname := hdot.append_adds (Sqlident.names_quoteMSSQL t.name)
  have hall := (Sqlident.names_quoteMSSQL t.schema).append hname rfl
  rw [Quoting.Names, qualified, String.toList_append, String.toList_append, List.append_assoc]
  exact hall

/-- A type before a blank. -/
theorem reads_type {sqlType : String} (h : sqlType ∈ sqlTypes) :
    Reads tsql .idle (sqlType.toList ++ " ".toList) .idle (typeTokens sqlType) := by
  simp only [sqlTypes, List.mem_cons, List.not_mem_nil, or_false] at h
  rcases h with rfl | rfl | rfl | rfl | rfl | rfl | rfl | rfl | rfl | rfl <;> decide

theorem adds_nullability {nullability : String} (hn : nullability ∈ ["NULL", "NOT NULL"]) :
    Adds tsql (fun c => !isWord c) nullability.toList (nullabilityTokens nullability) := by
  have hlast : text "LLUN".toList = "NULL" := by decide
  simp only [List.mem_cons, List.not_mem_nil, or_false] at hn
  rcases hn with rfl | rfl
  · have hread : Reads tsql .idle "NULL".toList (.word "LLUN".toList) [] := by decide
    have hall := hread.adds_word
    rwa [hlast] at hall
  · have hread : Reads tsql .idle "NOT NULL".toList (.word "LLUN".toList) [.word "NOT"] := by decide
    have hall := hread.adds_word
    rwa [hlast] at hall

theorem adds_columnText {c : ColumnDef} (htype : c.sqlType ∈ sqlTypes)
    (hn : c.nullability ∈ ["NULL", "NOT NULL"]) :
    Adds tsql (fun c => !isWord c) (columnText c).toList (columnTokens c) := by
  have hblank : Reads tsql .idle " ".toList .idle [] := by decide
  have htail := hblank.append_adds ((reads_type htype).append_adds (adds_nullability hn))
  have hall := (Sqlident.names_quoteMSSQL c.name).append htail rfl
  simpa [columnText, columnTokens, nameToken, quoted] using hall

/-- The columns, separated by commas. -/
theorem adds_columns {cols : List ColumnDef}
    (hcols : ∀ c ∈ cols, c.sqlType ∈ sqlTypes ∧ c.nullability ∈ ["NULL", "NOT NULL"]) :
    Adds tsql (fun c => !isWord c) (",\n  ".intercalate (cols.map columnText)).toList
      ([Token.symbol ','].intercalate (cols.map columnTokens)) := by
  have hcomma : Reads tsql .idle ",\n  ".toList .idle [.symbol ','] := by decide
  rw [String.toList_intercalate, List.map_map]
  exact adds_intercalate hcomma (by decide) fun c hc => adds_columnText (hcols c hc).1 (hcols c hc).2

/-- Fixed words before the name of a table. -/
theorem tokens_on {words : String} {ts : List Token}
    (hw : Reads tsql .idle words.toList .idle ts) (t : TargetTable) :
    tokens tsql (words ++ qualified t).toList = some (ts ++ tableTokens t) := by
  rw [String.toList_append]
  exact (hw.append_adds (names_qualified t)).tokens

theorem tokens_selectInto (staging target : TargetTable) :
    tokens tsql ("SELECT * INTO " ++ qualified staging ++ " FROM " ++ qualified target ++
      " WHERE 1 = 0").toList = some (DbCall.selectInto staging target).skeleton := by
  have hselect : Reads tsql .idle "SELECT * INTO ".toList .idle
      [.word "SELECT", .symbol '*', .word "INTO"] := by decide
  have hfrom : Reads tsql .idle " FROM ".toList .idle [.word "FROM"] := by decide
  have hwhere : Reads tsql .idle " WHERE 1 = 0".toList (.word ['0'])
      [.word "WHERE", .word "1", .symbol '='] := by decide
  have htarget := (names_qualified target).append hwhere.adds_word rfl
  have hstaging := (names_qualified staging).append (hfrom.append_adds htarget) rfl
  have hall := (hselect.append_adds hstaging).tokens
  simpa [DbCall.skeleton, text] using hall

theorem tokens_createTable (t : TargetTable) {cols : List ColumnDef}
    (hcols : (DbCall.createTable t cols).Formed) :
    tokens tsql ("CREATE TABLE " ++ qualified t ++ " (\n  " ++
      ",\n  ".intercalate (cols.map columnText) ++ "\n);").toList =
      some (DbCall.createTable t cols).skeleton := by
  have hcreate : Reads tsql .idle "CREATE TABLE ".toList .idle [.word "CREATE", .word "TABLE"] := by
    decide
  have hopen : Reads tsql .idle " (\n  ".toList .idle [.symbol '('] := by decide
  have hend : Reads tsql .idle "\n);".toList .idle [.symbol ')', .symbol ';'] := by decide
  have hcolumns := (adds_columns hcols).append (hend.adds fun _ => true) rfl
  have htable := (names_qualified t).append (hopen.append_adds hcolumns) rfl
  have hall := (hcreate.append_adds htable).tokens
  simpa [DbCall.skeleton] using hall

end Mssql

/-- SQL Server reads the text of a call as its words and one delimited identifier for
    each name. -/
def DbCall.Tokenises (c : DbCall) : Prop :=
  ∀ text, c.text = some text → tokens tsql text.toList = some c.skeleton

theorem DbCall.Formed.tokenises {c : DbCall} (h : c.Formed) : c.Tokenises := by
  intro text htext
  cases c with
  | tableExists t =>
    have hconst : tokens tsql tableExistsText.toList = some tableExistsTokens := by decide +kernel
    rwa [← Option.some.inj htext]
  | dropTableIfExists t =>
    rw [← Option.some.inj htext]
    exact tokens_on (by decide) t
  | selectInto staging target =>
    rw [← Option.some.inj htext]
    exact tokens_selectInto staging target
  | createTable t cols =>
    rw [← Option.some.inj htext]
    exact tokens_createTable t h
  | truncateTable t =>
    rw [← Option.some.inj htext]
    exact tokens_on (by decide) t
  | bulkCopy t rows =>
    rw [← Option.some.inj htext]
    exact (names_qualified t).tokens
  | spRename objname newname =>
    have hconst : tokens tsql "EXEC sp_rename @objname, @newname;".toList = some [.word "EXEC",
        .word "sp_rename", .word "@objname", .symbol ',', .word "@newname", .symbol ';'] := by
      decide +kernel
    rwa [← Option.some.inj htext]
  | dropTable t =>
    rw [← Option.some.inj htext]
    exact tokens_on (by decide) t
  | beginTx | commitTx | rollbackTx => exact absurd htext (by simp [DbCall.text])

end DataLoader
