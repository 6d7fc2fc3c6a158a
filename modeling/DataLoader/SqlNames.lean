import DataLoader.Codec.SqlLex
import DataLoader.Sqlident

/-!
# Names in SQL texts

`QuoteMSSQL` and `QuotePostgres` of `internal/sqlident/ident.go` make one delimited
identifier of any name, and their qualified forms one for each segment. The two pairs
of functions differ in their delimiters and in the characters that they trim.
-/

namespace DataLoader

open SqlLex

/-- How a dialect quotes a name. -/
structure Quoting where
  dialect : Delimiters
  opening : Char
  close : Char
  cutset : List Char
  opens : start dialect opening = (.delimited close [], [])

namespace Quoting

def mssql : Quoting := ⟨tsql, '[', ']', ['[', ']'], by decide⟩

def postgres : Quoting := ⟨SqlLex.postgres, '"', '"', ['"'], by decide⟩

@[simp] theorem mssql_dialect : mssql.dialect = tsql := rfl

@[simp] theorem postgres_dialect : postgres.dialect = SqlLex.postgres := rfl

variable (q : Quoting)

/-- The token of a name or segment: what is left of it after trimming. -/
def token (name : List Char) : Token := .delimited (String.ofList (Sqlident.trim q.cutset name))

/-- The tokens of an object name: one for each segment, with dots between them. -/
def objectTokens (name : String) : List Token :=
  [Token.symbol '.'].intercalate
    ((name.toList.splitOn '.').map fun p => [q.token (Sqlident.trim q.cutset p)])

/-- The piece `s` adds the tokens `ts` to a text that goes on with anything but a
    closing delimiter. -/
def Names (s : String) (ts : List Token) : Prop := Adds q.dialect (· != q.close) s.toList ts

/-- What both `QuoteMSSQL` and `QuotePostgres` compute. -/
def quote (name : List Char) : List Char :=
  q.opening :: Sqlident.doubled q.close (Sqlident.trim q.cutset name) ++ [q.close]

theorem adds_quote (name : List Char) :
    Adds q.dialect (· != q.close) (q.quote name) [q.token name] :=
  adds_delimited q.opens (Sqlident.trim q.cutset name)

/-- The segments of an object name, quoted and joined with dots. -/
theorem adds_segments (hdot : Reads q.dialect .idle ['.'] .idle [.symbol '.']) (hne : '.' ≠ q.close)
    (parts : List (List Char)) :
    Adds q.dialect (· != q.close)
      (['.'].intercalate (parts.map fun p => q.quote (Sqlident.trim q.cutset p)))
      ([Token.symbol '.'].intercalate
        (parts.map fun p => [q.token (Sqlident.trim q.cutset p)])) :=
  adds_intercalate hdot (by simpa using hne) fun p _ => q.adds_quote _

end Quoting

namespace Sqlident

theorem names_quoteMSSQL (name : String) :
    Quoting.mssql.Names (String.ofList (quoteMSSQL name.toList)) [Quoting.mssql.token name.toList] := by
  rw [Quoting.Names, String.toList_ofList]
  exact Quoting.mssql.adds_quote name.toList

theorem names_quotePostgres (name : String) :
    Quoting.postgres.Names (String.ofList (quotePostgres name.toList))
      [Quoting.postgres.token name.toList] := by
  rw [Quoting.Names, String.toList_ofList]
  exact Quoting.postgres.adds_quote name.toList

variable [GoLib]

theorem names_quoteMSSQLQualified {name obj : String} (h : quoteMSSQLQualified name = .ok obj) :
    Quoting.mssql.Names obj (Quoting.mssql.objectTokens name) := by
  unfold quoteMSSQLQualified at h
  cases hvalid : validateQualified name with
  | some e => simp [hvalid] at h
  | none =>
    simp only [hvalid, Except.ok.injEq] at h
    rw [← h, Quoting.Names, String.toList_ofList]
    exact Quoting.mssql.adds_segments (by decide) (by decide) _

theorem names_quotePostgresQualified {name obj : String} (h : quotePostgresQualified name = .ok obj) :
    Quoting.postgres.Names obj (Quoting.postgres.objectTokens name) := by
  unfold quotePostgresQualified at h
  cases hvalid : validateQualified name with
  | some e => simp [hvalid] at h
  | none =>
    simp only [hvalid, Except.ok.injEq] at h
    rw [← h, Quoting.Names, String.toList_ofList]
    exact Quoting.postgres.adds_segments (by decide) (by decide) _

end Sqlident

end DataLoader
