import DataLoader.Sink.Mssql

/-!
# What the sink calls

Every method of the SQL Server sink makes calls on the sink database and no
others, so it touches neither the store nor the source, and each of its statements
is `Formed`. Whatever holds of such calls holds of every method.
-/

namespace DataLoader

open Effects

/-- The calls on the sink database. -/
def SysCall.onDb {S : Sig} : SysCall S → Prop
  | .db _ => True
  | _ => False

variable {S : Sig}

/-- A replacer that only calls the sink database. -/
structure AtomicReplacer.OnDb (a : AtomicReplacer S) : Prop where
  beginReplace : ∀ t cols, (a.beginReplace t cols).Calls SysCall.onDb
  commitReplace : ∀ t stg, (a.commitReplace t stg).Calls SysCall.onDb
  abortReplace : ∀ stg, (a.abortReplace stg).Calls SysCall.onDb

/-- A sink that only calls the sink database. -/
structure Sink.OnDb (k : Sink S) : Prop where
  tableExists : ∀ t, (k.tableExists t).Calls SysCall.onDb
  ensureTable : ∀ t cols, (k.ensureTable t cols).Calls SysCall.onDb
  truncate : ∀ t, (k.truncate t).Calls SysCall.onDb
  writeBatch : ∀ t batch loadTS, (k.writeBatch t batch loadTS).Calls SysCall.onDb
  atomic : ∀ a, k.atomic = some a → a.OnDb

namespace Mssql

/-- The types that `mapToSQLType` can return. -/
def sqlTypes : List String :=
  ["nvarchar(max)", "int", "bigint", "real", "float", "bit", "datetime2", "varbinary(max)",
    "decimal(38,10)", "uniqueidentifier"]

theorem mapToSQLType_mem (canonical : String) : mapToSQLType canonical ∈ sqlTypes := by
  have hite : ∀ (c : Prop) [Decidable c] {a b : String}, a ∈ sqlTypes → b ∈ sqlTypes →
      (if c then a else b) ∈ sqlTypes := by
    intro c _ a b ha hb
    by_cases hc : c
    · rwa [if_pos hc]
    · rwa [if_neg hc]
  unfold mapToSQLType
  iterate 10 refine hite _ (by decide) ?_
  decide

theorem nullability_mem (nullable : Bool) : nullability nullable ∈ ["NULL", "NOT NULL"] := by
  cases nullable <;> decide

end Mssql

/-- `sp_rename`. -/
def DbCall.renames : DbCall → Bool
  | .spRename .. => true
  | _ => false

/-- A statement as the sink builds it: columns have one of the fixed types, and are
    `NULL` or `NOT NULL`. -/
def DbCall.Formed : DbCall → Prop
  | .createTable _ cols =>
    ∀ c ∈ cols, c.sqlType ∈ Mssql.sqlTypes ∧ c.nullability ∈ ["NULL", "NOT NULL"]
  | _ => True

namespace Mssql

section

variable [GoLib]

theorem columnDefs_formed {columns : List Column} {cols : List ColumnDef}
    (h : columnDefs columns = .ok cols) :
    ∀ c ∈ cols, c.sqlType ∈ sqlTypes ∧ c.nullability ∈ ["NULL", "NOT NULL"] := by
  induction columns generalizing cols with
  | nil =>
    cases h
    intro c hc
    obtain rfl := List.mem_singleton.1 hc
    exact ⟨by decide, by decide⟩
  | cons col columns ih =>
    unfold columnDefs at h
    cases hname : Sqlident.validate col.name with
    | some e => simp [hname] at h
    | none =>
      simp only [hname] at h
      cases hrest : columnDefs columns with
      | error e => simp [hrest, Except.map] at h
      | ok rest =>
        rw [hrest] at h
        cases h
        intro c hc
        rcases List.mem_cons.1 hc with rfl | hc
        · exact ⟨mapToSQLType_mem _, nullability_mem _⟩
        · exact ih hrest c hc

end

variable {P : SysCall S → Prop} (hP : ∀ c : DbCall, c.Formed → P (.db c))

include hP

theorem calls_statement (c : DbCall) (hc : c.Formed) :
    (statement c : Prog (sysSig S) c.Ans).Calls P := ⟨hP c hc, fun _ => trivial⟩

variable [GoLib]

theorem calls_tableExists (t : TargetTable) :
    (tableExists t : Prog (sysSig S) (Except Err Bool)).Calls P := by
  unfold tableExists
  cases validateTarget t with
  | some e => exact trivial
  | none => exact calls_statement hP (.tableExists t) trivial

theorem calls_ensureTable (t : TargetTable) (cols : List Column) :
    (ensureTable t cols : Prog (sysSig S) (Option Err)).Calls P := by
  unfold ensureTable
  cases validateTarget t with
  | some e => exact trivial
  | none =>
    refine (calls_statement hP (.tableExists t) trivial).bind fun r => ?_
    match r with
    | .error e => exact trivial
    | .ok true => exact trivial
    | .ok false =>
      cases hdefs : columnDefs cols with
      | error e => exact trivial
      | ok defs => exact calls_statement hP (.createTable t defs) (columnDefs_formed hdefs)

theorem calls_truncate (t : TargetTable) :
    (truncate t : Prog (sysSig S) (Option Err)).Calls P := by
  unfold truncate
  cases validateTarget t with
  | some e => exact trivial
  | none => exact calls_statement hP (.truncateTable t) trivial

theorem calls_writeBatch (t : TargetTable) (batch : Batch) (loadTS : Time) :
    (writeBatch t batch loadTS : Prog (sysSig S) (Except Err Int)).Calls P := by
  unfold writeBatch
  split_ifs
  · exact trivial
  cases validateTarget t with
  | some e => exact trivial
  | none =>
  cases validateColumns batch.columns with
  | some e => exact trivial
  | none =>
  cases prepareRows batch.columns loadTS batch.rows with
  | error e => exact trivial
  | ok rows =>
    refine (calls_statement hP (.bulkCopy t rows) trivial).bind fun r => ?_
    match r with
    | some e => exact trivial
    | none => exact trivial

/-! ## The replacer -/

theorem calls_beginReplace (t : TargetTable) (cols : List Column) :
    (beginReplace t cols : Prog (sysSig S) (Except Err TargetTable)).Calls P := by
  unfold beginReplace
  cases validateTarget t with
  | some e => exact trivial
  | none =>
  cases stagingTarget t with
  | error e => exact trivial
  | ok stg =>
    refine (calls_statement hP (.dropTableIfExists stg) trivial).bind fun r => ?_
    match r with
    | some e => exact trivial
    | none =>
      refine (calls_statement hP (.tableExists t) trivial).bind fun r => ?_
      match r with
      | .error e => exact trivial
      | .ok true =>
        refine (calls_statement hP (.selectInto stg t) trivial).bind fun r => ?_
        match r with
        | some e => exact trivial
        | none => exact trivial
      | .ok false =>
        simp only
        split_ifs
        · exact trivial
        · refine (calls_ensureTable hP stg cols).bind fun r => ?_
          match r with
          | some e => exact trivial
          | none => exact trivial

omit hP in
theorem calls_renameInTx {t : TargetTable} {newName : String}
    (h : P (.db (.spRename (t.schema ++ "." ++ t.name) newName))) :
    (renameInTx t newName : Prog (sysSig S) (Option Err)).Calls P := by
  unfold renameInTx
  cases Sqlident.validate newName with
  | some e => exact trivial
  | none =>
    refine ⟨h, fun r => ?_⟩
    match r with
    | some e => exact trivial
    | none => exact trivial

omit hP [GoLib] in
theorem calls_inTx (htx : ∀ c ∈ [DbCall.beginTx, .commitTx, .rollbackTx], P (.db c))
    {body : Prog (sysSig S) (Option Err)} (h : body.Calls P) : (inTx body).Calls P := by
  have hrollback : (statement .rollbackTx : Prog (sysSig S) Unit).Calls P :=
    ⟨htx _ (by simp), fun _ => trivial⟩
  refine ⟨htx _ (by simp), fun r => ?_⟩
  match r with
  | some e => exact trivial
  | none =>
    refine h.bind fun r => ?_
    cases r with
    | some e => exact hrollback.bind fun _ => trivial
    | none => exact ⟨htx .commitTx (by simp), fun _ => hrollback.bind fun _ => trivial⟩

omit hP in
theorem calls_swapInTx {t stg old : TargetTable}
    (hlive : P (.db (.spRename (t.schema ++ "." ++ t.name) old.name)))
    (hstg : P (.db (.spRename (stg.schema ++ "." ++ stg.name) t.name)))
    (hdrop : P (.db (.dropTable old))) :
    (swapInTx t stg old : Prog (sysSig S) (Option Err)).Calls P := by
  unfold swapInTx
  refine (calls_renameInTx hlive).bind fun r => ?_
  cases r with
  | some e => exact trivial
  | none =>
    refine (calls_renameInTx hstg).bind fun r => ?_
    cases r with
    | some e => exact trivial
    | none =>
      refine ⟨hdrop, fun r => ?_⟩
      match r with
      | some e => exact trivial
      | none => exact trivial

omit hP in
/-- The calls of the commit, with the two that rename a table apart. -/
theorem calls_commitReplace_of {t stg : TargetTable}
    (hother : ∀ c : DbCall, c.Formed → c.renames = false → P (.db c))
    (hlive : P (.db (.spRename (t.schema ++ "." ++ t.name) (old t).name)))
    (hstg : P (.db (.spRename (stg.schema ++ "." ++ stg.name) t.name))) :
    (commitReplace t stg : Prog (sysSig S) (Option Err)).Calls P := by
  have htx : ∀ c ∈ [DbCall.beginTx, .commitTx, .rollbackTx], P (.db c) := by
    intro c hc
    rcases (by simpa using hc) with rfl | rfl | rfl <;> exact hother _ trivial rfl
  unfold commitReplace
  cases validateTarget t with
  | some e => exact trivial
  | none =>
  cases validateTarget stg with
  | some e => exact trivial
  | none =>
    refine ⟨hother (.tableExists t) trivial rfl, fun r => ?_⟩
    match r with
    | .error e => exact trivial
    | .ok liveExists =>
      refine ⟨hother (.tableExists stg) trivial rfl, fun r => ?_⟩
      match r with
      | .error e => exact trivial
      | .ok false => exact trivial
      | .ok true =>
        simp only
        split_ifs
        · exact calls_inTx htx (calls_renameInTx hstg)
        · unfold oldTarget
          cases Sqlident.validate (t.name ++ oldSuffix) with
          | some e => exact trivial
          | none =>
            refine ⟨hother (.dropTableIfExists (old t)) trivial rfl, fun r => ?_⟩
            match r with
            | some e => exact trivial
            | none => exact calls_inTx htx (calls_swapInTx hlive hstg (hother _ trivial rfl))

theorem calls_commitReplace (t stg : TargetTable) :
    (commitReplace t stg : Prog (sysSig S) (Option Err)).Calls P :=
  calls_commitReplace_of (fun c hc _ => hP c hc) (hP _ trivial) (hP _ trivial)

theorem calls_abortReplace (stg : TargetTable) :
    (abortReplace stg : Prog (sysSig S) (Option Err)).Calls P := by
  unfold abortReplace
  cases validateTarget stg with
  | some e => exact trivial
  | none => exact calls_statement hP (.dropTableIfExists stg) trivial

omit hP in
theorem sink_onDb : (sink : Sink S).OnDb where
  tableExists := calls_tableExists fun _ _ => trivial
  ensureTable := calls_ensureTable fun _ _ => trivial
  truncate := calls_truncate fun _ _ => trivial
  writeBatch := calls_writeBatch fun _ _ => trivial
  atomic a ha := by
    obtain rfl := Option.some.inj ha
    exact ⟨calls_beginReplace fun _ _ => trivial, calls_commitReplace fun _ _ => trivial,
      calls_abortReplace fun _ _ => trivial⟩

end Mssql

end DataLoader
