import DataLoader.Feed.Tail
import DataLoader.Sources.Sql

/-!
# The source database

The SQL database behind a load, as that load sees it: the rows of its object,
the value of the watermark column in each, and the queries of `Sources.Sql`. All
queries of a load name the same object and column, so the names are not looked
up. MAX, `>` and `<=` are those of a linear order on the values `V` of the column.

A query is answered from the rows at the time of the call. Every way in which it
can fail is an outcome: the query itself, the column types, the iteration after
some rows, or the scan of a row.
-/

namespace DataLoader

open Effects

/-- A row: the value of the watermark column, `none` for NULL, and the values
    that the driver scans, in column order. -/
structure SourceRow (V : Type) where
  wm : Option V
  values : List Value
  deriving DecidableEq, Repr

/-- How the database converts values of the watermark column. -/
structure WatermarkColumn (V : Type) where
  /-- The value as a `time.Time`. -/
  time : V → Time
  /-- The value cast to text. -/
  text : V → String
  /-- What a time argument is compared as; `none` is a conversion error. -/
  ofTime : Time → Option V
  /-- What a text argument is compared as. -/
  ofText : String → Option V

/-- What an argument is compared as. -/
def SqlArg.value {V : Type} (col : WatermarkColumn V) : SqlArg → Option V
  | .text s => col.ofText s
  | .time t => col.ofTime t

namespace SourceRow

variable {V : Type} [LinearOrder V]

/-- MAX of the watermark column, which ignores NULLs. -/
def maxWm (rows : List (SourceRow V)) : Option V := Feed.top SourceRow.wm rows

/-- The rows with `lo < wm AND wm <= up`. -/
def covered (lo up : V) (rows : List (SourceRow V)) : List (SourceRow V) :=
  Feed.between SourceRow.wm lo up rows

/-- `ORDER BY wm ASC`. -/
def wmLe (r s : SourceRow V) : Bool :=
  match r.wm, s.wm with
  | none, _ => true
  | some _, none => false
  | some x, some y => decide (x ≤ y)

end SourceRow

variable {V : Type} [LinearOrder V]

open SourceRow

/-- The rows of a SELECT. -/
def Select.rows (col : WatermarkColumn V) (rows : List (SourceRow V)) :
    Select → Except Err (List (SourceRow V))
  | .all _ => .ok rows
  | .range _ _ lo up =>
    match lo.value col, up.value col with
    | some lo, some up => .ok ((covered lo up rows).mergeSort wmLe)
    | _, _ => .error "conversion failed"

/-- The result set of a SELECT that found `out`. A failure is by its number of
    parts done: the query, the column types, then in turn the iteration and the
    scan after 0, 1, … rows. -/
def Outcome.cursor (types : List ColumnType) (out : List (SourceRow V)) :
    Outcome → Except Err Cursor
  | .ok => .ok ⟨.ok types, out.map (.ok ·.values), none⟩
  | .fail msg 0 => .error msg
  | .fail msg 1 => .ok ⟨.error msg, [], none⟩
  | .fail msg (n + 2) =>
    let got := (out.take (n / 2)).map (.ok ·.values)
    if n % 2 = 0 then .ok ⟨.ok types, got, some msg⟩
    else .ok ⟨.ok types, got ++ [.error msg], none⟩

/-- The answer to a SELECT. -/
def Select.answer (col : WatermarkColumn V) (types : List ColumnType) (rows : List (SourceRow V))
    (o : Outcome) (q : Select) : Except Err Cursor :=
  match q.rows col rows with
  | .error e => .error (o.err.getD e)
  | .ok out => o.cursor types out

/-- The answer to a query of the source. -/
def SqlCall.answer (col : WatermarkColumn V) (types : List ColumnType) (rows : List (SourceRow V))
    (o : Outcome) : (c : SqlCall) → c.Ans
  | .maxTime _ _ =>
    match o with
    | .ok => .ok ((maxWm rows).map col.time)
    | .fail msg _ => .error msg
  | .maxText _ _ =>
    match o with
    | .ok => .ok ((maxWm rows).map col.text)
    | .fail msg _ => .error msg
  | .query q => q.answer col types rows o

/-! ## Queries that go through -/

theorem Select.answer_ok {col : WatermarkColumn V} {types : List ColumnType}
    {rows : List (SourceRow V)} {o : Outcome} {q : Select} {cur : Cursor}
    (h : q.answer col types rows o = .ok cur) :
    ∃ out, q.rows col rows = .ok out ∧ o.cursor types out = .ok cur := by
  unfold Select.answer at h
  cases hsel : q.rows col rows with
  | error e => rw [hsel] at h; cases h
  | ok out => rw [hsel] at h; exact ⟨out, rfl, h⟩

theorem Select.range_rows_ok {col : WatermarkColumn V} {rows out : List (SourceRow V)} {obj c : String}
    {lo up : SqlArg} (h : (Select.range obj c lo up).rows col rows = .ok out) :
    ∃ x y, lo.value col = some x ∧ up.value col = some y ∧
      out = (covered x y rows).mergeSort wmLe := by
  simp only [Select.rows] at h
  split at h
  · rename_i x y hx hy
    exact ⟨x, y, hx, hy, (Except.ok.inj h).symm⟩
  · cases h

omit [LinearOrder V] in
/-- A result set without an error holds the selected rows. -/
theorem Outcome.cursor_ok {out : List (SourceRow V)} {o : Outcome} {cur : Cursor} {ts : List ColumnType}
    {vals : List (List Value)} {types : List ColumnType} (h : o.cursor types out = .ok cur) (hts : cur.columnTypes = .ok ts)
    (hvals : cur.rows = vals.map .ok) (herr : cur.err = none) :
    ts = types ∧ vals = out.map (·.values) := by
  unfold Outcome.cursor at h
  split at h
  · obtain rfl := Except.ok.inj h
    refine ⟨(Except.ok.inj hts).symm, ?_⟩
    have hmap : (out.map (·.values)).map (.ok : List Value → Except Err (List Value)) = vals.map .ok := by
      rw [← hvals, List.map_map]
      rfl
    exact (List.map_injective_iff.2 (fun a b h => Except.ok.inj h) hmap).symm
  · cases h
  · obtain rfl := Except.ok.inj h
    cases hts
  · rename_i msg n
    simp only at h
    split_ifs at h with heven
    · obtain rfl := Except.ok.inj h
      cases herr
    · obtain rfl := Except.ok.inj h
      have hmem : (Except.error msg : Except Err (List Value)) ∈ vals.map .ok := by
        rw [← hvals]
        simp
      obtain ⟨x, -, hx⟩ := List.mem_map.1 hmem
      cases hx

/-! ## Changes of the table -/

/-- What others do to the table. -/
inductive TableChange (V : Type)
  | insert (r : SourceRow V)
  | update (i : ℕ) (r : SourceRow V)
  | delete (i : ℕ)
  deriving DecidableEq, Repr

/-- The table afterwards. -/
def TableChange.apply : TableChange V → List (SourceRow V) → List (SourceRow V)
  | .insert r, rows => rows ++ [r]
  | .update i r, rows => rows.set i r
  | .delete i, rows => rows.eraseIdx i

/-- Every change is allowed. -/
def anyChange : TableChange V → List (SourceRow V) → Bool := fun _ _ => true

/-- Only inserts, each with a watermark above all that are visible. -/
def increasing : TableChange V → List (SourceRow V) → Bool
  | .insert ⟨some x, _⟩, rows => rows.all fun r => r.wm.all fun y => decide (y < x)
  | _, _ => false

/-- The source side of a SQL load: its table, with the changes that `policy`
    allows. The session plays no part here and leases the source as number 0. -/
def sqlSide (col : WatermarkColumn V) (types : List ColumnType)
    (policy : TableChange V → List (SourceRow V) → Bool) : SourceSide sqlSig where
  State := List (SourceRow V)
  Change := TableChange V
  change c rows := if policy c rows then some (c.apply rows) else none
  obtain _ o _ rows := (match o with | .ok => .ok 0 | .fail msg _ => .error msg, rows)
  release _ _ _ rows := rows
  answer _ c o _ rows := (c.answer col types rows o, rows)

end DataLoader
