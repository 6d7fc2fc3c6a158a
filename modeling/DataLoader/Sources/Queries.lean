import DataLoader.Effects.Protocol
import DataLoader.Sink.Statements
import DataLoader.Sources.Postgres
import DataLoader.Sources.Sqlserver

/-!
# The SQL texts of the sources

The text that `internal/sources/sqlserver/source.go` and
`internal/sources/postgres/source.go` build for each query, and the tokens that the
databases read in it. With the texts of the sink, `sql_texts_tokenise` covers every SQL
text that is built from metadata.
-/

namespace DataLoader

open Effects SqlLex

/-! ## Texts -/

namespace Sqlserver

/-- The SELECT of `buildQuery` (lines 176 and 196–199). -/
def selectText : Select → String
  | .all obj => "SELECT * FROM " ++ obj
  | .range obj col _ _ => "SELECT * FROM " ++ obj ++ " WHERE " ++ col ++ " > @p1 AND " ++ col ++
      " <= @p2 ORDER BY " ++ col

/-- The text of a query for a watermark of the given type (lines 214–233). -/
def callText (wmType : String) : SqlCall → String
  | .maxTime obj col => "SELECT MAX(" ++ col ++ ") FROM " ++ obj
  | .maxText obj col =>
    if wmType = watermarkNumeric then "SELECT CONVERT(varchar(40), MAX(" ++ col ++ ")) FROM " ++ obj
    else "SELECT CONVERT(varchar(400), MAX(" ++ col ++ ")) FROM " ++ obj
  | .query q => selectText q

end Sqlserver

namespace Postgres

/-- The SELECT of `buildQuery` (lines 232 and 260). -/
def selectText : Select → String
  | .all obj => "SELECT * FROM " ++ obj
  | .range obj col _ _ => "SELECT * FROM " ++ obj ++ " WHERE " ++ col ++ " > $1 AND " ++ col ++
      " <= $2 ORDER BY " ++ col ++ " ASC"

/-- The text of a query (lines 353–375). -/
def callText : SqlCall → String
  | .maxTime obj col => "SELECT MAX(" ++ col ++ ") FROM " ++ obj
  | .maxText obj col => "SELECT MAX(" ++ col ++ ")::text FROM " ++ obj
  | .query q => selectText q

end Postgres

/-! ## Tokens -/

namespace Sqlserver

/-- The fixed words of a query of a load, with one delimited identifier for each
    segment of its object and for each mention of its watermark column. -/
def skeleton (load : LoadConfig) (c : SqlCall) : List Token :=
  let obj := Quoting.mssql.objectTokens load.objectName
  let col := Quoting.mssql.token load.watermarkColumn.toList
  match c with
  | .maxTime .. =>
    [.word "SELECT", .word "MAX", .symbol '(', col, .symbol ')', .word "FROM"] ++ obj
  | .maxText .. =>
    [.word "SELECT", .word "CONVERT", .symbol '(', .word "varchar", .symbol '(',
      .word (if load.watermarkType = watermarkNumeric then "40" else "400"), .symbol ')',
      .symbol ',', .word "MAX", .symbol '(', col, .symbol ')', .symbol ')', .word "FROM"] ++ obj
  | .query (.all _) => [.word "SELECT", .symbol '*', .word "FROM"] ++ obj
  | .query (.range ..) =>
    [.word "SELECT", .symbol '*', .word "FROM"] ++ obj ++
      [.word "WHERE", col, .symbol '>', .word "@p1", .word "AND", col, .symbol '<', .symbol '=',
        .word "@p2", .word "ORDER", .word "BY", col]

/-- SQL Server reads the text of a call of `Read` as these tokens. -/
def Tokenises (load : LoadConfig) : (readSig sqlSig).Call → Prop
  | .driver c => tokens tsql (callText load.watermarkType c).toList = some (skeleton load c)
  | .emit _ => True

end Sqlserver

namespace Postgres

/-- The same for PostgreSQL. -/
def skeleton (load : LoadConfig) (c : SqlCall) : List Token :=
  let obj := Quoting.postgres.objectTokens load.objectName
  let col := Quoting.postgres.token load.watermarkColumn.toList
  match c with
  | .maxTime .. =>
    [.word "SELECT", .word "MAX", .symbol '(', col, .symbol ')', .word "FROM"] ++ obj
  | .maxText .. =>
    [.word "SELECT", .word "MAX", .symbol '(', col, .symbol ')', .symbol ':', .symbol ':',
      .word "text", .word "FROM"] ++ obj
  | .query (.all _) => [.word "SELECT", .symbol '*', .word "FROM"] ++ obj
  | .query (.range ..) =>
    [.word "SELECT", .symbol '*', .word "FROM"] ++ obj ++
      [.word "WHERE", col, .symbol '>', .word "$1", .word "AND", col, .symbol '<', .symbol '=',
        .word "$2", .word "ORDER", .word "BY", col, .word "ASC"]

/-- PostgreSQL reads the text of a call of `Read` as these tokens. -/
def Tokenises (load : LoadConfig) : (readSig sqlSig).Call → Prop
  | .driver c => tokens SqlLex.postgres (callText c).toList = some (skeleton load c)
  | .emit _ => True

end Postgres

/-! ## Fixed words around names -/

/-- Fixed words with a quoted name after them, and the tokens of both. -/
structure Clause (q : Quoting) where
  words : String
  fixed : List Token
  name : String
  quoted : List Token
  reads : Reads q.dialect .idle words.toList .idle fixed
  apart : words.toList.head?.any (· != q.close) = true
  names : q.Names name quoted

namespace Clause

variable {q : Quoting}

def text (c : Clause q) : List Char := c.words.toList ++ c.name.toList

def tokens (c : Clause q) : List Token := c.fixed ++ c.quoted

theorem head_text (c : Clause q) : c.text.head?.any (· != q.close) = true := by
  have hapart := c.apart
  cases hlist : c.words.toList with
  | nil => simp [hlist] at hapart
  | cons a as => simpa [text, hlist] using hapart

/-- Each clause keeps the name of the one before it closed. -/
theorem adds_flatMap (cs : List (Clause q)) :
    Adds q.dialect (· != q.close) (cs.flatMap text) (cs.flatMap tokens) := by
  induction cs with
  | nil => exact fun rest ts' _ hrest => hrest
  | cons c cs ih =>
    cases cs with
    | nil =>
      rw [List.flatMap_singleton, List.flatMap_singleton]
      exact c.reads.append_adds c.names
    | cons c' cs =>
      have hhead : ((c' :: cs).flatMap text).head?.any (· != q.close) = true := by
        obtain ⟨a, ha, hok⟩ := (Option.any_eq_true _ _).1 c'.head_text
        rw [List.flatMap_cons, List.head?_append, ha]
        exact hok
      rw [List.flatMap_cons, text, List.append_assoc]
      change Adds q.dialect _ _ (c.fixed ++ c.quoted ++ (c' :: cs).flatMap tokens)
      rw [List.append_assoc]
      exact c.reads.append_adds (c.names.append ih hhead)

end Clause

/-- The calls of `Read` for an object and a column. -/
inductive SqlCall.Asks (obj col : String) : SqlCall → Prop
  | maxTime : Asks obj col (.maxTime obj col)
  | maxText : Asks obj col (.maxText obj col)
  | all : Asks obj col (.query (.all obj))
  | range (lower upper : SqlArg) : Asks obj col (.query (.range obj col lower upper))

/-! ## The programs -/

namespace Sql

variable {P : (readSig sqlSig).Call → Prop}

/-- The MAX queries that `currentMaxWatermark` may send for a type. -/
theorem calls_scanMax [GoLib] {obj col wmType : String} (htime : P (.driver (.maxTime obj col)))
    (htext : P (.driver (.maxText obj col))) : (scanMax obj col wmType).Calls P := by
  unfold scanMax
  split_ifs
  · refine ⟨htime, fun r => ?_⟩
    match r with
    | .error e => trivial
    | .ok none => trivial
    | .ok (some t) => trivial
  · refine ⟨htext, fun r => ?_⟩
    match r with
    | .error e => trivial
    | .ok none => trivial
    | .ok (some raw) => trivial
  · refine ⟨htext, fun r => ?_⟩
    match r with
    | .error e => trivial
    | .ok raw => trivial

theorem calls_readLoop (hemit : ∀ b, P (.emit b)) (f : Flavour) (columns : List Column) (size : ℕ)
    (rows : List (Except Err (List Value))) (pending : List Row) (n : Int) :
    (readLoop f columns size rows pending n).Calls P := by
  induction rows generalizing pending n with
  | nil => trivial
  | cons row rows ih =>
    cases row with
    | error e => trivial
    | ok holders =>
      unfold readLoop
      dsimp only
      split_ifs
      · refine ⟨hemit _, fun r => ?_⟩
        match r with
        | some e => trivial
        | none => exact ih _ _
      · exact ih _ _

theorem calls_readRows (hemit : ∀ b, P (.emit b)) (f : Flavour) (batchSize : Int) {q : Select}
    (hq : P (.driver (.query q))) (newWM : Watermark) : (readRows f batchSize q newWM).Calls P := by
  refine ⟨hq, ?_⟩
  rintro (e | ⟨columnTypes, rows, err⟩)
  · trivial
  cases columnTypes with
  | error e => trivial
  | ok types =>
    refine (calls_readLoop hemit f _ _ _ _ _).bind ?_
    rintro (e | ⟨pending, n⟩)
    · trivial
    cases err with
    | some e => trivial
    | none =>
      dsimp only
      split_ifs
      · trivial
      · refine ⟨hemit _, ?_⟩
        rintro (_ | e) <;> trivial

/-- What follows `buildQuery` may rely on the query that it has built. -/
theorem calls_afterBuild {α : Type} {build : Prog (readSig sqlSig) (Except Err (Select × Watermark))}
    {rest : Except Err (Select × Watermark) → Prog (readSig sqlSig) α}
    (hbuild : (allowing P).Follows build
      (fun r _ => ∀ q wm, r = .ok (q, wm) → P (.driver (.query q))) ())
    (herror : ∀ e, (rest (.error e)).Calls P)
    (hok : ∀ q wm, P (.driver (.query q)) → (rest (.ok (q, wm))).Calls P) :
    (build >>= rest).Calls P := by
  have hall : (allowing P).Follows (build >>= rest) (fun _ _ => True) () := by
    refine hbuild.seq ?_
    rintro r ⟨⟩ hr
    cases r with
    | error e => exact allowing_follows (herror e)
    | ok qwm => exact allowing_follows (hok qwm.1 qwm.2 (hr qwm.1 qwm.2 rfl))
  exact hall.calls

end Sql

namespace Sqlserver

variable [GoLib] {load : LoadConfig} {obj : String}

/-- The watermark column as the queries have it. -/
def quotedColumn (load : LoadConfig) : String :=
  String.ofList (Sqlident.quoteMSSQL load.watermarkColumn.toList)

theorem tokenises (h : quoteObject load.objectName = .ok obj) {c : SqlCall}
    (hc : c.Asks obj (quotedColumn load)) : Tokenises load (.driver c) := by
  have hobj := Sqlident.names_quoteMSSQLQualified h
  have hcol := Sqlident.names_quoteMSSQL load.watermarkColumn
  let select : Clause .mssql :=
    ⟨"SELECT * FROM ", [.word "SELECT", .symbol '*', .word "FROM"], _, _, by decide, by decide, hobj⟩
  cases hc with
  | maxTime =>
    have hall := (Clause.adds_flatMap [
      ⟨"SELECT MAX(", [.word "SELECT", .word "MAX", .symbol '('], _, _, by decide, by decide, hcol⟩,
      ⟨") FROM ", [.symbol ')', .word "FROM"], _, _, by decide, by decide, hobj⟩]).tokens
    simpa [Tokenises, callText, skeleton, Clause.text, Clause.tokens, quotedColumn] using hall
  | maxText =>
    let tail : Clause .mssql :=
      ⟨")) FROM ", [.symbol ')', .symbol ')', .word "FROM"], _, _, by decide, by decide, hobj⟩
    by_cases hnumeric : load.watermarkType = watermarkNumeric
    · have hall := (Clause.adds_flatMap [
        ⟨"SELECT CONVERT(varchar(40), MAX(", [.word "SELECT", .word "CONVERT", .symbol '(',
          .word "varchar", .symbol '(', .word "40", .symbol ')', .symbol ',', .word "MAX",
          .symbol '('], _, _, by decide, by decide, hcol⟩, tail]).tokens
      simpa [Tokenises, callText, skeleton, hnumeric, Clause.text, Clause.tokens, tail, quotedColumn]
        using hall
    · have hall := (Clause.adds_flatMap [
        ⟨"SELECT CONVERT(varchar(400), MAX(", [.word "SELECT", .word "CONVERT", .symbol '(',
          .word "varchar", .symbol '(', .word "400", .symbol ')', .symbol ',', .word "MAX",
          .symbol '('], _, _, by decide, by decide, hcol⟩, tail]).tokens
      simpa [Tokenises, callText, skeleton, hnumeric, Clause.text, Clause.tokens, tail, quotedColumn]
        using hall
  | all =>
    have hall := select.reads.append_adds select.names |>.tokens
    rw [← String.toList_append] at hall
    exact hall
  | range lower upper =>
    have hall := (Clause.adds_flatMap [select,
      ⟨" WHERE ", [.word "WHERE"], _, _, by decide, by decide, hcol⟩,
      ⟨" > @p1 AND ", [.symbol '>', .word "@p1", .word "AND"], _, _, by decide, by decide, hcol⟩,
      ⟨" <= @p2 ORDER BY ", [.symbol '<', .symbol '=', .word "@p2", .word "ORDER", .word "BY"],
        _, _, by decide, by decide, hcol⟩]).tokens
    dsimp only [Tokenises, callText, selectText, skeleton, quotedColumn]
    simpa only [select, Quoting.mssql_dialect, Clause.text, Clause.tokens, List.flatMap_cons,
      List.flatMap_nil, String.toList_append, List.append_assoc, List.cons_append, List.nil_append,
      List.append_nil] using hall

theorem calls_currentMaxWatermark (h : quoteObject load.objectName = .ok obj) :
    (currentMaxWatermark obj load.watermarkColumn load.watermarkType).Calls (Tokenises load) := by
  unfold currentMaxWatermark
  cases Sqlident.validate load.watermarkColumn with
  | some e => trivial
  | none => exact Sql.calls_scanMax (tokenises h .maxTime) (tokenises h .maxText)

theorem follows_buildQuery (load : LoadConfig) :
    (allowing (Tokenises load)).Follows (buildQuery load)
      (fun r _ => ∀ q wm, r = .ok (q, wm) → Tokenises load (.driver (.query q))) () := by
  unfold buildQuery
  cases hobj : quoteObject load.objectName with
  | error e =>
    rintro q wm ⟨⟩
  | ok obj =>
    dsimp only
    split_ifs
    · intro q wm hq
      cases hq
      exact tokenises hobj .all
    · rintro q wm ⟨⟩
    · cases Sqlident.validate load.watermarkColumn with
      | some e => rintro q wm ⟨⟩
      | none =>
        refine (allowing_follows (calls_currentMaxWatermark hobj)).seq ?_
        rintro r ⟨⟩ -
        cases r with
        | error e => rintro q wm ⟨⟩
        | ok upper =>
          intro q wm hq
          cases hq
          exact tokenises hobj (.range _ _)

theorem calls_read (load : LoadConfig) : (read load).Calls (Tokenises load) := by
  unfold read
  split_ifs
  · cases hobj : quoteObject load.objectName with
    | error e => trivial
    | ok obj =>
      refine (calls_currentMaxWatermark hobj).bind fun r => ?_
      cases r with
      | error e => trivial
      | ok upper => trivial
  · refine Sql.calls_afterBuild (follows_buildQuery load) (fun _ => trivial) fun q wm hq => ?_
    exact Sql.calls_readRows (fun _ => trivial) _ _ hq wm

end Sqlserver

namespace Postgres

variable [GoLib] {load : LoadConfig} {obj : String}

/-- The watermark column as the queries have it. -/
def quotedColumn (load : LoadConfig) : String :=
  String.ofList (Sqlident.quotePostgres load.watermarkColumn.toList)

theorem tokenises (h : Sqlident.quotePostgresQualified load.objectName = .ok obj) {c : SqlCall}
    (hc : c.Asks obj (quotedColumn load)) : Tokenises load (.driver c) := by
  have hobj := Sqlident.names_quotePostgresQualified h
  have hcol := Sqlident.names_quotePostgres load.watermarkColumn
  let maxOf : Clause .postgres :=
    ⟨"SELECT MAX(", [.word "SELECT", .word "MAX", .symbol '('], _, _, by decide, by decide, hcol⟩
  let select : Clause .postgres :=
    ⟨"SELECT * FROM ", [.word "SELECT", .symbol '*', .word "FROM"], _, _, by decide, by decide, hobj⟩
  cases hc with
  | maxTime =>
    have hall := (Clause.adds_flatMap [maxOf,
      ⟨") FROM ", [.symbol ')', .word "FROM"], _, _, by decide, by decide, hobj⟩]).tokens
    simpa [Tokenises, callText, skeleton, Clause.text, Clause.tokens, maxOf, quotedColumn] using hall
  | maxText =>
    have hall := (Clause.adds_flatMap [maxOf,
      ⟨")::text FROM ", [.symbol ')', .symbol ':', .symbol ':', .word "text", .word "FROM"], _, _,
        by decide, by decide, hobj⟩]).tokens
    simpa [Tokenises, callText, skeleton, Clause.text, Clause.tokens, maxOf, quotedColumn] using hall
  | all =>
    have hall := select.reads.append_adds select.names |>.tokens
    rw [← String.toList_append] at hall
    exact hall
  | range lower upper =>
    have hasc : Reads SqlLex.postgres .idle " ASC".toList (.word "CSA".toList) [] := by decide
    have hall := ((Clause.adds_flatMap [select,
      ⟨" WHERE ", [.word "WHERE"], _, _, by decide, by decide, hcol⟩,
      ⟨" > $1 AND ", [.symbol '>', .word "$1", .word "AND"], _, _, by decide, by decide, hcol⟩,
      ⟨" <= $2 ORDER BY ", [.symbol '<', .symbol '=', .word "$2", .word "ORDER", .word "BY"],
        _, _, by decide, by decide, hcol⟩]).append hasc.adds_word rfl).tokens
    rw [show text "CSA".toList = "ASC" by decide] at hall
    dsimp only [Tokenises, callText, selectText, skeleton, quotedColumn]
    simpa only [select, Quoting.postgres_dialect, Clause.text, Clause.tokens, List.flatMap_cons,
      List.flatMap_nil, String.toList_append, List.append_assoc, List.cons_append, List.nil_append,
      List.append_nil] using hall

theorem calls_currentMaxWatermark (load : LoadConfig) :
    (currentMaxWatermark load.objectName load.watermarkColumn load.watermarkType).Calls
      (Tokenises load) := by
  unfold currentMaxWatermark
  cases Sqlident.validate load.watermarkColumn with
  | some e => trivial
  | none =>
    dsimp only
    cases hobj : Sqlident.quotePostgresQualified load.objectName with
    | error e => trivial
    | ok obj => exact Sql.calls_scanMax (tokenises hobj .maxTime) (tokenises hobj .maxText)

theorem follows_buildQuery (load : LoadConfig) :
    (allowing (Tokenises load)).Follows (buildQuery load)
      (fun r _ => ∀ q wm, r = .ok (q, wm) → Tokenises load (.driver (.query q))) () := by
  unfold buildQuery
  cases hobj : Sqlident.quotePostgresQualified load.objectName with
  | error e => rintro q wm ⟨⟩
  | ok obj =>
    dsimp only
    split_ifs
    · intro q wm hq
      cases hq
      exact tokenises hobj .all
    · rintro q wm ⟨⟩
    · cases Sqlident.validate load.watermarkColumn with
      | some e => rintro q wm ⟨⟩
      | none =>
        refine (allowing_follows (calls_currentMaxWatermark load)).seq ?_
        rintro r ⟨⟩ -
        cases r with
        | error e => rintro q wm ⟨⟩
        | ok upper =>
          dsimp only
          cases parseWatermark load.lastWatermark with
          | error e => rintro q wm ⟨⟩
          | ok last =>
            dsimp only
            cases parseWatermark upper with
            | error e => rintro q wm ⟨⟩
            | ok upperArg =>
              intro q wm hq
              cases hq
              exact tokenises hobj (.range _ _)

theorem calls_read (load : LoadConfig) : (read load).Calls (Tokenises load) := by
  unfold read
  split_ifs
  · refine (calls_currentMaxWatermark load).bind fun r => ?_
    cases r with
    | error e => trivial
    | ok upper => trivial
  · refine Sql.calls_afterBuild (follows_buildQuery load) (fun _ => trivial) fun q wm hq => ?_
    exact Sql.calls_readRows (fun _ => trivial) _ _ hq wm

end Postgres

/-! ## Every text -/

/-- The calls of the sink whose texts are as `DbCall.Tokenises` says. -/
def SysCall.Tokenises {S : Sig} : SysCall S → Prop
  | .db c => c.Tokenises
  | _ => True

/-- Each SQL text that the sink and the SQL sources build from metadata is read by the
    database as the fixed words of its statement, with exactly one delimited identifier
    for each name and for each segment of an object name. -/
theorem sql_texts_tokenise [GoLib] (S : Sig) :
    (∀ t, (Mssql.dropTableIfExists t : Prog (sysSig S) _).Calls SysCall.Tokenises) ∧
    (∀ t, (Mssql.tableExists t : Prog (sysSig S) _).Calls SysCall.Tokenises) ∧
    (∀ t cols, (Mssql.ensureTable t cols : Prog (sysSig S) _).Calls SysCall.Tokenises) ∧
    (∀ t, (Mssql.truncate t : Prog (sysSig S) _).Calls SysCall.Tokenises) ∧
    (∀ t batch loadTS, (Mssql.writeBatch t batch loadTS : Prog (sysSig S) _).Calls
      SysCall.Tokenises) ∧
    (∀ t cols, (Mssql.beginReplace t cols : Prog (sysSig S) _).Calls SysCall.Tokenises) ∧
    (∀ t stg, (Mssql.commitReplace t stg : Prog (sysSig S) _).Calls SysCall.Tokenises) ∧
    (∀ stg, (Mssql.abortReplace stg : Prog (sysSig S) _).Calls SysCall.Tokenises) ∧
    (∀ load, (Sqlserver.read load).Calls (Sqlserver.Tokenises load)) ∧
    (∀ load, (Postgres.read load).Calls (Postgres.Tokenises load)) := by
  have hP : ∀ c : DbCall, c.Formed → (SysCall.db c : SysCall S).Tokenises := fun _ h => h.tokenises
  exact ⟨fun t => Mssql.calls_statement hP (.dropTableIfExists t) trivial,
    Mssql.calls_tableExists hP, Mssql.calls_ensureTable hP, Mssql.calls_truncate hP,
    Mssql.calls_writeBatch hP, Mssql.calls_beginReplace hP, Mssql.calls_commitReplace hP,
    Mssql.calls_abortReplace hP, Sqlserver.calls_read, Postgres.calls_read⟩

/-- A name with a bracket in it stays inside of its identifier. -/
example : tokens tsql ((DbCall.dropTable ⟨"dbo", "a] --b"⟩).text.getD "").toList =
    some [.word "DROP", .word "TABLE", .delimited "dbo", .symbol '.', .delimited "a] --b"] := by
  decide +kernel

end DataLoader
